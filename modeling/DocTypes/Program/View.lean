import DocTypes.Program.Attribute
import DocTypes.Selector.Match
import DocTypes.Tree.Text

/-!
# What selectors see of a program

Seen by a selector, a program is one tree: below its root stand the syntax nodes and the registered
blocks, below a block its tags, below a tag its type, and below a type its parts.
-/

namespace DocTypes

/-- Are two values the same thing? -/
def Value.same : Value → Value → Bool
  | .null, .null => true
  | .bool a, .bool b => a == b
  | .node a, .node b => a.id == b.id
  | .block a, .block b => a == b
  | .tag a, .tag b => a.id == b.id
  | .type a, .type b => a == b
  | .types, .types => true
  | .foreign a _, .foreign b _ => a == b
  | _, _ => false

/-- The names of the attributes that hold what stands below a thing, given the name of its kind. -/
def childNames (kind : String) : List String :=
  match kind with
  | "Program" => ["body", "doc_blocks"]
  | "DocBlock" => ["tags"]
  | "DocTag" => ["parsed_type"]
  | "TypeUnion" | "TypeIntersection" | "TypeTuple" => ["elements"]
  | "TypeGeneric" => ["left", "elements"]
  | "TypeObject" => ["fields"]
  | "TypeObjectField" | "TypeKeyValue" => ["right"]
  | "TypeFunction" => ["parameters", "return_type"]
  | "TypeArray" | "TypeParenthesis" | "TypeNullable" | "TypeNotNullable" | "TypeOptional"
  | "TypeVariadic" | "TypeTypeof" | "TypeKeyof" => ["element"]
  | _ => (Kind.ofText kind).childFields.map Field.text

namespace Program

/-- What a value stands for: a number stands for the type with this key. -/
def resolve (program : Program) : Value → Except AccessFault Value
  | .number (.int key) =>
    match key.toNat?.bind program.types.get? with
    | some node => .ok (.type node)
    | none => .error .noPlace
  | value => .ok value

/-- What stands below a thing. -/
def held (program : Program) (value : Value) : Except AccessFault (List (Held Value)) :=
  ((childNames (value.kindText?.getD "")).filterMap (program.attribute? value)).mapM fun
    | .list items => return ⟨true, ← items.mapM program.resolve⟩
    | value => return ⟨false, [← program.resolve value]⟩

/-- A bound for the number of levels below a thing: those of syntax, one for blocks and one for
tags, and types that are no deeper than there are slots. -/
def levels (program : Program) : Nat :=
  program.root.height + program.types.slots.size + 3

/-- What selectors see of a program. -/
def view (program : Program) : View Value where
  kind? := Value.kindText?
  held := program.held
  isNull := Value.isNull
  same := Value.same
  attribute? := program.attribute?
  text := Value.plainText
  levels := program.levels

/-- What the selectors in a text select. -/
def query (program : Program) (text : String) : Except QueryFault (List Value) :=
  program.view.query (.node program.root) text

end Program

end DocTypes
