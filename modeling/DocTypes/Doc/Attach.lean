import DocTypes.Source.Token
import DocTypes.Tree.Node

/-!
# Attaching blocks to nodes

A block documents the outermost node that starts at the first token after it, if no other comment
stands between and the token is on the comment's last line or the next. A node takes the first block
that is offered to it. All other blocks belong to the program as a whole.
-/

namespace DocTypes

/-- The outermost node below `root` that starts at an offset: the first one of the walk. -/
def Node.startingAt? (root : Node) (offset : Nat) : Option Node :=
  (root.walk.drop 1).find? fun node => node.start? == some offset

/-- The first token after a comment. -/
def Comment.nextToken (comment : Comment) (lexed : Lexed) : Token :=
  (lexed.tokens.find? fun token => comment.span.stop ≤ token.span.start).getD lexed.endToken

/-- Does another comment stand between a comment and the token after it? -/
def Comment.isBlocked (comment : Comment) (lexed : Lexed) : Bool :=
  lexed.comments.any fun other =>
    comment.span.stop ≤ other.span.start &&
      other.span.start < (comment.nextToken lexed).span.start

/-- The node that a documentation comment stands right before. -/
def Comment.subject? (comment : Comment) (lexed : Lexed) (root : Node) : Option Node :=
  let token := comment.nextToken lexed
  if !comment.isBlocked lexed && token.line ≤ comment.lastLine + 1 then
    root.startingAt? token.span.start
  else none

/-- Which node each comment documents, given the nodes that are documented already. -/
def subjects (lexed : Lexed) (root : Node) : List Nat → List Comment → List (Option Nat)
  | _, [] => []
  | taken, comment :: rest =>
    match comment.subject? lexed root with
    | some node =>
      if taken.contains node.id then none :: subjects lexed root taken rest
      else some node.id :: subjects lexed root (node.id :: taken) rest
    | none => none :: subjects lexed root taken rest

/-- The root and the blocks of a source, each linked with the other. -/
def attach (lexed : Lexed) (root : Node) (blocks : List Block) : Node × List Block :=
  let owners := subjects lexed root [] (lexed.comments.filter Comment.isDoc)
  let blocks :=
    blocks.zipWith (fun block owner => { block with owner := some (owner.getD root.id) })
    owners
  let root := root.mapNodes fun node => node.withDoc (owners.findIdx? (· == some node.id))
  (root, blocks)

end DocTypes
