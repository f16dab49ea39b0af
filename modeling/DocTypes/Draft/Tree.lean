import DocTypes.Draft.Text

/-!
# The tree of a draft

The nodes of a draft as a tree of syntax nodes, for those who only read it. What stands in several
places stands in the tree several times, with the same number. What is no node is foreign to the
tree, and so is a node that stands below itself.
-/

namespace DocTypes

/-- The field with a name, if it is one that the reader sets. -/
def Field.ofKnown? (name : String) : Option Field :=
  Field.known.find? fun field => field.text == name

namespace Draft

/-- The name of the kind of a thing, or what an edit put in its place. -/
def kindText? (draft : Draft) (datum : Datum) : Option String :=
  match draft.get? datum "type" with
  | none | some .null => none
  | some (.text kind) => some kind
  | some kind => (kind.plain.itemText.toOption).join

/-- The kind of the node that a datum is. -/
def nodeKind (draft : Draft) (datum : Datum) : Kind :=
  ((draft.kind? datum).map Kind.ofText).getD .unnamed

/-- A datum as a value, at most `levels` things deep and below the things of `path`. -/
def unfoldTo (draft : Draft) : Nat → List Nat → Datum → Value
  | levels + 1, path, .thing ref =>
    let foreign := Value.foreign ref (draft.kindText? (.thing ref))
    if path.contains ref then foreign
    else
      match draft.things[ref]? with
      | some (.record .node attributes) =>
        .node <| .mk (draft.nodeKind (.thing ref)) ref none none none <|
          attributes.filterMap fun (name, value) =>
            (Field.ofKnown? name).map fun field =>
              (field, unfoldTo draft levels (ref :: path) value)
      | some (.list items) => .list (items.map (unfoldTo draft levels (ref :: path)))
      | some (.table entries) =>
        match entries.lookup (.text "pattern"), entries.lookup (.text "flags") with
        | some (.text pattern), some (.text flags) => .regex pattern flags
        | _, _ => foreign
      | _ => foreign
  | _, _, .operation => .foreign draft.things.size none
  | _, _, datum => datum.plain

/-- A datum as a value. Nothing is deeper than there are things. -/
def unfolded (draft : Draft) (datum : Datum) : Value :=
  draft.unfoldTo (draft.things.size + 1) [] datum

/-- The datum that a value of the tree stands for, if it is a thing. -/
def refold : Value → Datum
  | .node node => .thing node.id
  | .foreign id _ => .thing id
  | _ => .null

end Draft

end DocTypes
