import DocTypes.Program.Attribute
import DocTypes.Tree.Text

/-!
# Printers

A printer makes text in a context: how deep it is indented, and whether a bare `in` would be
mistaken for the one of a loop's head. A tree that was put together by hand can lack what its kind
asks for, and then printing fails.
-/

namespace DocTypes

/-- Why a value cannot be printed. -/
inductive PrintFault where
  /-- the value is no node, and nothing else prints its kind -/
  | noPrinter (kind : Option String)
  /-- the kind of node is unknown -/
  | noForm (kind : String)
  /-- what the value prints as is no text -/
  | noText
  /-- a part is missing or does not fit -/
  | access (fault : AccessFault)
deriving DecidableEq, Repr

/-- Where in the program's text a printer is. -/
structure PrintContext where
  depth : Nat := 0
  noIn : Bool := false
deriving Repr

/-- A printer. -/
abbrev Printer := ReaderT PrintContext (Except PrintFault)

/-- What kind of node a value is, the kinds of documentation among them. -/
def Value.kind? : Value → Option Kind
  | .node value => some value.kind
  | value => value.kindText?.map .other

namespace Printer

/-- The indentation of a line here. -/
def indentation : Printer Text :=
  return Text.join (List.replicate (← read).depth "    ")

/-- Prints one level further in. -/
def indented {α : Type} (printer : Printer α) : Printer α :=
  withReader (fun context => { context with depth := context.depth + 1 }) printer

/-- Prints where a bare `in` has to be in parentheses. -/
def guardingIn {α : Type} (printer : Printer α) : Printer α :=
  withReader (fun context => { context with noIn := true }) printer

/-- Fails because a part is missing or does not fit. -/
def refuse {α : Type} (fault : AccessFault) : Printer α :=
  throw (.access fault)

/-- Prints, and fails with `fault` if what is printed is no text. -/
def asText (fault : AccessFault) (printer : Printer Text) : Printer Text :=
  tryCatch printer fun
    | .noText => refuse fault
    | other => throw other

/-- The value of a field that has to be there. -/
def field (node : Node) (field : Field) : Printer Value :=
  match node.get? field with
  | some value => return value
  | none => refuse .noAttribute

/-- The value of a field of a value, which has to be a node. -/
def fieldOf (value : Value) (field : Field) : Printer Value :=
  match value with
  | .node node => Printer.field node field
  | _ => refuse .noAttribute

/-- Is the field set to something that counts as true? -/
def flag (node : Node) (field : Field) : Bool :=
  (node.get field).isTrue

/-- Is the field of a value set to something that counts as true? -/
def flagOf (value : Value) (field : Field) : Bool :=
  match value with
  | .node node => flag node field
  | _ => false

/-- The text of a field that has to be a text. -/
def textField (node : Node) (field : Field) : Printer Text := do
  match (← Printer.field node field).wideText? with
  | some text => return text
  | none => refuse .misfit

/-- What a node prints as that is nothing but its name. -/
def nameField (node : Node) (field : Field) : Printer Text := do
  match (← Printer.field node field).wideText? with
  | some text => return text
  | none => throw .noText

/-- The items of a value that has to have some. -/
def itemsOf (value : Value) : Printer (List Value) :=
  match value.elements? with
  | some items => return items
  | none => refuse .misfit

/-- The items of a field that has to have some. -/
def listField (node : Node) (field : Field) : Printer (List Value) := do
  itemsOf (← Printer.field node field)

/-- The items of a field that has to have some or to be nothing. -/
def listFieldOrNothing (node : Node) (field : Field) : Printer (List Value) := do
  let value ← Printer.field node field
  if value.isTrue then itemsOf value else return []

/-- The kind of a value, which has to have one. -/
def kindOf (value : Value) : Printer Kind :=
  match value.kind? with
  | some kind => return kind
  | none => refuse .noAttribute

/-- Does the text start with `start`? -/
def startsWith (start text : Text) : Bool :=
  start.points.isPrefixOf text.points

/-- Does the text end in a line break? -/
def endsLine (text : Text) : Bool :=
  text.points.getLast? == some '\n'.toNat

/-- Puts an item after a text. An item that starts with a line break does not make a blank line
where a line has just ended. -/
def appendItem (text item : Text) : Text :=
  if startsWith "\n" item && (text == "" || endsLine text) then text ++ ⟨item.points.drop 1⟩
  else text ++ item

/-- Puts items after a text, one after the other. -/
def appendItems (text : Text) (items : List Text) : Text :=
  items.foldl appendItem text

end Printer

end DocTypes
