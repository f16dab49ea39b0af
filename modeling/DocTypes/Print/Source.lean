import DocTypes.Doc.Printer
import DocTypes.Print.Statement

/-!
# Printing programs

A node that has a place in the source is printed from the source: the text between its children is
copied, and each child is printed in its turn, so code that nobody touched stays as it was. In the
copied text the source's documentation blocks are printed anew. A node without a place is printed
from its structure.

A documentation block gives way in all the text that it owns. One that is no longer registered
leaves the line break it took up; one that was not changed is copied; any other is printed and laid
out as it was.

What a printer has to know of the program is gathered in a `PrintSource`, so that it serves programs
however they are kept.
-/

namespace DocTypes

/-- Where something starts or ends in a source. -/
inductive Bound where
  /-- it has no such thing as a place -/
  | absent
  /-- it has no place in the source -/
  | unset
  | at (offset : Int)
  /-- an edit made it something that is no offset -/
  | misfit
deriving DecidableEq, Repr

/-- Where something stands in a source. -/
structure Extent where
  start : Bound
  stop : Bound
deriving DecidableEq, Repr

/-- The extent of what may have a span. -/
def Extent.ofSpan? : Option Span → Extent
  | some span => ⟨.at span.start, .at span.stop⟩
  | none => ⟨.unset, .unset⟩

/-- A documentation block of the source, with the text that it owns. -/
structure SourceBlock where
  block : Value
  start : Int
  stop : Int

/-- What a printer of programs knows. -/
structure PrintSource where
  /-- the text to copy from -/
  text : Option (List Char)
  /-- the source's blocks, in the order in which they start -/
  blocks : List SourceBlock
  /-- where a value stands in the source -/
  extent : Value → Extent
  /-- prints documentation, if it is to be printed; what an edit made of it may be no text -/
  document : Option (Value → Except AccessFault (Option String))

/-- What is needed to put a block into its place. An edited block can lack some of it. -/
structure BlockPlace where
  /-- where the block starts in the source; a block that was put together has no place there -/
  start : Option Int
  /-- the text that the block owns -/
  ownText : Except AccessFault (List Char)
  leadingBreak : Bool
  trailingBreak : Bool
  indent : Except AccessFault String
  opening : Except AccessFault String
  isRegistered : Bool
  isModified : Except AccessFault Bool
  /-- the comment as it now reads -/
  text : Except AccessFault String

namespace BlockPlace

/-- The indentation of the line after a block that owns this text. -/
def nextIndent (ownText : List Char) : String :=
  String.ofList (ownText.drop (ownText.length - lastLineLength ownText))

/-- The offset of `part` in `text`. -/
def offsetOf? (part : List Char) : List Char → Option Nat
  | [] => if part.isEmpty then some 0 else none
  | c :: rest =>
    if part.isPrefixOf (c :: rest) then some 0 else (offsetOf? part rest).map (· + 1)

/-- What a block's text holds before its comment. Should the comment not open as the block says,
that is all but the last character. -/
def lead (opening : String) (ownText : List Char) : String :=
  String.ofList (ownText.take ((offsetOf? opening.toList ownText).getD (ownText.length - 1)))

/-- What is left of a block that is no longer registered. -/
def printDropped (place : BlockPlace) (start : Int) : Except AccessFault String := do
  let lineBreak :=
    if place.leadingBreak || (place.trailingBreak && 0 < start) then "\n" else ""
  if place.trailingBreak then return lineBreak ++ nextIndent (← place.ownText)
  else if place.leadingBreak then return lineBreak ++ (← place.indent)
  else return lineBreak

/-- A block in its place in the program's text. -/
def print (place : BlockPlace) : Except AccessFault String := do
  match place.start with
  | none =>
    let text ← place.text
    if place.trailingBreak then
      return (if place.leadingBreak then "\n" else "") ++ text ++ "\n" ++ (← place.indent)
    else return text ++ " "
  | some start =>
    if !place.isRegistered then place.printDropped start
    else if !(← place.isModified) then return String.ofList (← place.ownText)
    else
      let text ← place.text
      let ownText ← place.ownText
      return lead (← place.opening) ownText ++ text ++
        if place.trailingBreak then "\n" ++ nextIndent ownText else " "

end BlockPlace

namespace PrintSource

/-- The children of a node that are there, in the order in which they are printed. The parts of a
template stand in two lists and are put in source order. -/
def children (source : PrintSource) (node : Node) : Printer (List Value) := do
  let values := node.childValues.filter fun value => !value.isNull
  if node.kind == .templateLiteral then
    let keyed ← values.mapM fun value => do
      match (source.extent value).start with
      | .absent => Printer.refuse .noAttribute
      | .misfit => Printer.refuse .misfit
      | .unset => return (value, (-1 : Int))
      | .at start => return (value, start)
    return (keyed.mergeSort fun a b => a.2 ≤ b.2).map (·.1)
  else return values

end PrintSource

namespace Printer

/-- The kinds of things that are printed as documentation. -/
def documentKinds : List String :=
  "DocBlock" :: "DocTag" :: TypeShape.kindTexts

variable (source : PrintSource) (text : List Char) (recur : Value → Printer Text)

/-- The source text up to `stop`, with blocks in it printed anew. -/
def gapFrom (stop : Int) : Int → List SourceBlock → Printer Text
  | place, [] => return Text.ofChars (cut text place stop)
  | place, block :: rest => do
    if block.stop ≤ stop then
      let before := Text.ofChars (cut text place block.start)
      let printed ← recur block.block
      return before ++ printed ++ (← gapFrom stop block.stop rest)
    else gapFrom stop place rest

/-- The source text from `start` up to `stop`, with the blocks in it printed anew. A place that is
not given cannot be compared with that of a block. -/
def gap (start stop : Option Int) : Printer Text :=
  match start, stop with
  | some start, some stop =>
    gapFrom text recur stop start <|
      source.blocks.filter fun block => start ≤ block.start && block.start < stop
  | some start, none =>
    if source.blocks.any fun block => start ≤ block.start then refuse .misfit
    else return Text.ofChars (cut text start none)
  | none, stop =>
    if source.blocks.isEmpty then return Text.ofChars (cut text none stop) else refuse .misfit

/-- The place after something that ends here. -/
def placeAfter : Bound → Printer (Option Int)
  | .at offset => return some offset
  | .unset => return none
  | .absent => refuse .noAttribute
  | .misfit => refuse .misfit

/-- Prints children from a place on, with the source text between them. A child that starts before
the place shares its text with the one before it. The answer is the text, and the place after the
last child. -/
def interleaved : Option Int → List Value → Printer (Text × Option Int)
  | place, [] => return ("", place)
  | place, child :: rest => do
    match (source.extent child).start with
    | .absent | .unset =>
      let printed ← recur child
      let (later, last) ← interleaved place rest
      return (printed ++ later, last)
    | .misfit => refuse .misfit
    | .at start =>
      match place with
      | none => refuse .misfit
      | some offset =>
        if offset ≤ start then
          let between ← gap source text recur place (some start)
          let printed ← recur child
          let after ← placeAfter (source.extent child).stop
          let (later, last) ← interleaved after rest
          return (between ++ printed ++ later, last)
        else interleaved place rest

/-- Has the value no place in the source? -/
def isPlaceless (value : Value) : Bool :=
  match (source.extent value).start with
  | .absent | .unset => true
  | _ => false

/-- Prints a node from the source. Children without a place after the last one with a place come at
the node's end, and in a program after its text. -/
def sourceForm (direct : Value → Printer Text) (node : Node) (start : Int) : Printer Text := do
  let recur := fun value => asText .misfit (direct value)
  let children ← source.children node
  let trailing := (children.reverse.takeWhile (isPlaceless source)).reverse
  let leading := children.take (children.length - trailing.length)
  let (head, place) ← interleaved source text recur (some start) leading
  if node.kind == .program then
    let trailing ← trailing.mapM fun value => asText .noAttribute (direct value)
    let tail ← gap source text recur place (← placeAfter (source.extent (.node node)).stop)
    return appendItems (head ++ tail) trailing
  else
    let trailing ← trailing.mapM recur
    let tail ← gap source text recur place (← placeAfter (source.extent (.node node)).stop)
    return head ++ Text.join trailing ++ tail

/-- Prints documentation. -/
def documentForm (print : Value → Except AccessFault (Option String)) (value : Value) :
    Printer Text :=
  match print value with
  | .ok (some text) => return text
  | .ok none => throw .noText
  | .error fault => refuse fault

/-- Prints what is no documentation. -/
def plainForm (value : Value) : Printer Text :=
  match value with
  | .node node =>
    match source.text, (source.extent value).start with
    | some text, .at start => sourceForm source text recur node start
    | some _, .misfit => refuse .misfit
    | _, _ => structureForm recur node
  | value =>
    if (source.extent value).start == .misfit then refuse .misfit
    else throw (.noPrinter value.kindText?)

/-- Prints a value, over the printer of the values below it. -/
def step (value : Value) : Printer Text :=
  match source.document, value.kindText? with
  | some print, some kind =>
    if documentKinds.contains kind then documentForm print value else plainForm source recur value
  | _, _ => plainForm source recur value

/-- The printer with a given number of levels. -/
def level : Nat → Value → Printer Text
  | 0 => fun _ => throw (.noPrinter none)
  | levels + 1 => step source (level levels)

end Printer

/-- Prints a tree. A node prints the values below it, and a block is below any node. -/
def PrintSource.print (source : PrintSource) (root : Node) : Except PrintFault Text :=
  let heights := source.blocks.map fun block => Node.valueHeight block.block
  Printer.level source (heights.foldl (· + ·) (root.height + 1)) (.node root) {}

/-- A text without its leading blank lines. -/
def dropBlankLines (text : List Char) : List Char :=
  let lines := splitLines text
  let kept := lines.dropWhile isBlankText
  joinLines (if kept.isEmpty then lines.drop (lines.length - 1) else kept)

/-- A printed program as it is delivered. Where blocks were dropped at the top of the file, the
blank lines after them go too, unless the text it was printed from starts with a blank line. -/
def finishPrint (text : Option (List Char)) (printed : Text) : Text :=
  let opensBlank := (text.map fun text => text.isEmpty || dropBlankLines text != text).getD true
  let blank := printed.chars.length - (dropBlankLines printed.chars).length
  if opensBlank then printed else ⟨printed.points.drop blank⟩

namespace Block

/-- The text of the program that a block owns. -/
def ownText (block : Block) (program : Program) : List Char :=
  match program.source, block.span with
  | some source, some span => span.text source
  | _, _ => []

/-- The block with its place in a program. -/
def place (block : Block) (program : Program) (isRegistered : Bool) : BlockPlace where
  start := block.span.map fun span => (span.start : Int)
  ownText := .ok (block.ownText program)
  leadingBreak := block.leadingBreak
  trailingBreak := block.trailingBreak
  indent := .ok block.indent
  opening := .ok block.opening
  isRegistered
  isModified := .ok (block.isModified program.types)
  text := .ok (block.print program.types)

end Block

namespace Program

/-- Prints the documentation of a program. -/
def printDocument (program : Program) (value : Value) : Except AccessFault (Option String) :=
  match value with
  | .block id =>
    match program.block? id with
    | some block => do return some (← (block.place program (program.registered.contains id)).print)
    | none => .error .noPlace
  | .tag tag => .ok (some (tag.print program.types))
  | .type node =>
    match program.types.print? node.key with
    | some text => .ok (some text)
    | none => .error .noPlace
  | _ => .error .noAttribute

/-- Where a value stands in the source. -/
def extent (program : Program) : Value → Extent
  | .node node => .ofSpan? node.span
  | .block id => .ofSpan? ((program.block? id).bind Block.span)
  | _ => ⟨.absent, .absent⟩

/-- The source's blocks in the order in which they start. -/
def sourceSpans (program : Program) : List SourceBlock :=
  let found := program.sourceBlocks.filterMap fun id =>
    ((program.block? id).bind Block.span).map fun span => ⟨.block id, span.start, span.stop⟩
  found.mergeSort fun a b => a.start ≤ b.start

/-- What a printer knows of a program. -/
def printSource (program : Program) (text : Option (List Char)) (documented : Bool) :
    PrintSource where
  text
  blocks := if text.isSome then program.sourceSpans else []
  extent := program.extent
  document := if documented then some program.printDocument else none

/-- Prints a program: from its structure if no text is given, and without its documentation unless
`documented`. -/
def print (program : Program) (text : Option (List Char)) (documented : Bool) :
    Except PrintFault Text :=
  (program.printSource text documented).print program.root

/-- Prints a documented program from a text. -/
def generate (program : Program) (text : Option (List Char)) : Except PrintFault Text := do
  return finishPrint text (← program.print text true)

end Program

end DocTypes
