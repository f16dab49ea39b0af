import DocTypes.Source.Lexer
import DocTypes.Tree.Reader.Statement

/-!
# Reading programs

The productions of the grammar are written over a function `recur` that stands for the reader one
level further down. `TreeReader.level` ties the knot with a given number of levels. As every call of
`recur` comes after a token was taken, one level more than there are tokens is enough. A reader that
goes on without taking a token, or takes one after the last, fails with a fault of its own
(`stalled`, `pastEnd`), which the tokens of no source give rise to.
-/

namespace DocTypes

namespace TreeReader

/-- The reader for a goal, over the reader one level down. -/
def step (recur : Goal → TreeReader Node) : Goal → TreeReader Node
  | .statement => statement recur
  | .expression => expression recur
  | .assignment => assignment recur
  | .binary floor => binary recur floor
  | .unary => unary recur
  | .leftHandSide => leftHandSide recur
  | .construction => construction recur
  | .bindingTarget => bindingTarget recur
  | .bindingElement => bindingElement recur

/-- The reader with a given number of levels. -/
def level : Nat → Goal → TreeReader Node
  | 0 => fun _ => throw .stalled
  | levels + 1 => step (level levels)

/-- Statements up to the end of the input, as a program that covers the whole source. -/
def program (levels : Nat) : TreeReader Node := do
  let body ← many do
    if ← isAtKind .endOfInput then return none
    return some (← level levels .statement, true)
  make .program ⟨0, (← get).source.length⟩
    [(.body, nodes body), (.sourceType, .text "module")]

end TreeReader

/-- Reads the syntax tree of a source from its tokens. The second part is the number of nodes that
were made. -/
def Node.ofTokens (source : List Char) (lexed : Lexed) : Except ReadFault (Node × Nat) := do
  let cursor : Cursor := { source, pending := lexed.tokens, endToken := lexed.endToken }
  let (root, cursor) ← (TreeReader.program (lexed.tokens.length + 1)).run cursor
  return (root, cursor.fresh)

end DocTypes
