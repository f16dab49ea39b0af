import DocTypes.Draft.Text
import DocTypes.Draft.Types

/-!
# What selectors see of a draft

A selector sees a draft as it sees a program: syntax, registered blocks, tags and types, by the
attributes that they have now.
-/

namespace DocTypes.Draft

/-- What a datum stands for: a number stands for the type with this key. Without an arena it stands
for nothing. -/
def resolve (draft : Draft) : Datum → Except AccessFault Datum
  | .number (.int key) =>
    match draft.get? (.thing draft.root) "types" with
    | none | some .null => .ok .null
    | some arena => draft.slot arena (.number (.int key))
  | datum => .ok datum

/-- What stands below a thing. -/
def held (draft : Draft) (datum : Datum) : Except AccessFault (List (Held Datum)) := do
  if draft.hasNoKind datum then throw .misfit
  ((childNames ((draft.kind? datum).getD "")).filterMap (draft.get? datum)).mapM fun value =>
    match draft.thing? value with
    | some (.list items) => return ⟨true, ← items.mapM draft.resolve⟩
    | _ => return ⟨false, [← draft.resolve value]⟩

/-- What selectors see of a draft. -/
def view (draft : Draft) : View Datum where
  kind? := draft.kind?
  held := draft.held
  isNull := Datum.isNull
  same := fun a b => decide (a = b)
  attribute? := draft.get?
  text := draft.text
  levels := draft.things.size + 2

/-- What the selectors in a text select. -/
def query (draft : Draft) (text : String) : Except QueryFault (List Datum) :=
  draft.view.query (.thing draft.root) text

end DocTypes.Draft
