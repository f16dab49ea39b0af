import DocTypes.Doc.Attach
import DocTypes.Doc.Layout
import DocTypes.Tree.Reader

/-!
# Programs

A program is a syntax tree with the documentation that belongs to it. The blocks live in a store and
are known by their numbers; `registered` lists those that are in force, and `sourceBlocks` those
that the source holds.
-/

namespace DocTypes

/-- A syntax tree with its documentation. -/
structure Program where
  root : Node
  /-- the text it was read from; a program that was put together has none -/
  source : Option (List Char) := none
  /-- the store of blocks -/
  blocks : Array Block := #[]
  registered : List Nat := []
  sourceBlocks : List Nat := []
  comments : List Comment := []
  types : Arena := {}
  /-- the number of the next node -/
  nextNode : Nat := 0
  /-- the number of the next tag -/
  nextTag : Nat := 0

/-- Why a source could not be read. -/
inductive ProgramFault where
  | lexing (error : LexError)
  | reading (fault : ReadFault)
  | typing (error : TypeError)

namespace Program

/-- Reads a source that was taken apart, with its documentation. -/
def ofLexed (source : List Char) (lexed : Lexed) : Except ProgramFault Program := do
  let (root, nextNode) ← (Node.ofTokens source lexed).mapError .reading
  let (blocks, docs) ← ((DocReader.readAll source lexed.comments).run {}).mapError .typing
  let (root, blocks) := attach lexed root blocks
  let numbers := List.range blocks.length
  return {
    root := root.linkParents
    source := some source
    blocks := blocks.toArray
    registered := numbers
    sourceBlocks := numbers
    comments := lexed.comments
    types := docs.types
    nextNode
    nextTag := docs.nextTag }

/-- Reads a source with its documentation. -/
def read (source : List Char) : Except ProgramFault Program := do
  ofLexed source (← (lex source).mapError .lexing)

/-- Reads a text of code points. Those that are no characters have to stand in strings; the program
keeps the text as it is seen. -/
def readText? (text : Text) : Option Program := do
  (ofLexed text.chars (← lexText? text)).toOption

/-- The block with a number. -/
def block? (program : Program) (id : Nat) : Option Block :=
  program.blocks[id]?

/-- The registered blocks. -/
def registeredBlocks (program : Program) : List Block :=
  program.registered.filterMap program.block?

/-- The node with a number. -/
def node? (program : Program) (id : Nat) : Option Node :=
  program.root.find? id

end Program

end DocTypes
