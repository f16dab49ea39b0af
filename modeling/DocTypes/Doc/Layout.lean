import DocTypes.Doc.Reader

/-!
# The layout around blocks

A block owns its comment, the line break before it if the comment is the first on its line, and the
blanks after it up to the next line's first character. When a block is dropped or printed anew, this
is the text that gives way. The spans of two blocks never overlap: of the layout between them the
first takes what it can.
-/

namespace DocTypes.DocReader

/-- The number of characters of `text` up to and with the line break that ends its blank rest of
line and the indentation after it, and whether there is such a line break. -/
def trailingLayout (text : List Char) : Nat × Bool :=
  let blanks := text.takeWhile isIndent
  let rest := text.dropWhile isIndent
  let afterBreak (length : Nat) : Nat × Bool :=
    (blanks.length + length + ((rest.drop length).takeWhile isIndent).length, true)
  match rest with
  | '\r' :: '\n' :: _ => afterBreak 2
  | '\n' :: _ => afterBreak 1
  | _ => (blanks.length, false)

/-- Says of a block where its comment stands in the source. -/
def place (source : List Char) (comment : Comment) (block : Block) : Block :=
  let before := source.take comment.span.start
  let column := lastLineLength before
  let lead := before.drop (before.length - column)
  let lineStart := comment.span.start - column
  let opens := isBlankText lead
  let (trailing, trailingBreak) := trailingLayout (source.drop comment.span.stop)
  { block with
    indent := String.ofList (lead.takeWhile isIndent)
    leadingBreak := opens && 0 < lineStart
    trailingBreak
    span := some ⟨if opens then lineStart - 1 else comment.span.start,
      comment.span.stop + trailing⟩ }

/-- A block without the text that the block before it owns. -/
def yieldTo (previous : Option Block) (comment : Comment) (block : Block) : Block :=
  match previous.bind Block.span, block.span with
  | some earlier, some span =>
    if span.start < earlier.stop then
      { block with
        leadingBreak := false
        span := some ⟨max earlier.stop comment.span.start, span.stop⟩ }
    else block
  | _, _ => block

/-- Reads the blocks of comments from the number `id` on. -/
def readFrom (source : List Char) : Nat → Option Block → List Comment → DocReader (List Block)
  | _, _, [] => return []
  | id, previous, comment :: rest => do
    let block ← readBlock id comment
    let block := yieldTo previous comment (place source comment block)
    return block :: (← readFrom source (id + 1) (some block) rest)

/-- Reads the documentation comments of a source, in their order. -/
def readAll (source : List Char) (comments : List Comment) : DocReader (List Block) :=
  readFrom source 0 none (comments.filter Comment.isDoc)

end DocTypes.DocReader
