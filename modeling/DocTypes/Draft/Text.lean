import DocTypes.Draft.Operation

/-!
# The text of data

How data of a draft read, with lists and tables in their brackets. Things with attributes have no
text, and neither has what holds them.
-/

namespace DocTypes

/-- A datum that is no thing as a value. -/
def Datum.plain : Datum → Value
  | .null => .null
  | .bool value => .bool value
  | .text value => .text value
  | .decoded points => .decoded points
  | .number value => .number value
  | .operation => .foreign 0 none
  | .thing ref => .foreign ref none

/-- What data without order are listed by: whole numbers by their size. -/
def Datum.rank : Datum → Int
  | .number (.int value) => value
  | _ => 0

/-- All the texts, if none is missing. -/
def allTexts (texts : List (Option String)) : Option (List String) :=
  texts.mapM id

namespace Draft

/-- The text of a datum inside a list, looking at most `levels` lists deep. -/
def itemTextTo (draft : Draft) : Nat → Datum → Except AccessFault (Option String)
  | 0, _ => .ok none
  | levels + 1, datum =>
    match draft.thing? datum with
    | none => datum.plain.itemText
    | some (.record _ _) => .ok none
    | some (.list items) => do
      return (allTexts (← items.mapM (itemTextTo draft levels))).map fun texts =>
        "[" ++ ", ".intercalate texts ++ "]"
    | some (.table entries) => do
      let texts ← entries.mapM fun (key, value) => do
        let key ← itemTextTo draft levels key
        let value ← itemTextTo draft levels value
        return key.bind fun key => value.map fun value => key ++ ": " ++ value
      return (allTexts texts).map fun texts => "\x7b" ++ ", ".intercalate texts ++ "\x7d"
    | some (.members []) => .ok (some "set()")
    | some (.members items) => do
      let items := items.mergeSort fun a b => decide (a.rank ≤ b.rank)
      return (allTexts (← items.mapM (itemTextTo draft levels))).map fun texts =>
        "\x7b" ++ ", ".intercalate texts ++ "\x7d"

/-- The text of a datum, as it is compared with others. -/
def text (draft : Draft) (datum : Datum) : Except AccessFault (Option String) :=
  match draft.thing? datum with
  | some _ => draft.itemTextTo draft.things.size datum
  | none => datum.plain.plainText

end Draft

end DocTypes
