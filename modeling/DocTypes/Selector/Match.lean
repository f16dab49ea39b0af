import DocTypes.Selector.Reader
import DocTypes.Selector.View

/-!
# What selectors select

`View.query` lists what a selector selects in the order of a walk through what it sees, each thing
once.
-/

namespace DocTypes

/-- Does the value at the end of a path pass a test? If the path leads nowhere, only a difference
holds; and what cannot be read differs from every text. -/
def AttributeTest.holds {α : Type} (test : AttributeTest) (view : View α) (value? : Option α) :
    Except AccessFault Bool :=
  match test, value? with
  | .present, some value => return !view.isNull value
  | .equals text, some value => return (← view.text value) == some text
  | .differs text, some value => return (← view.text value) != some text
  | .differs _, none => return true
  | _, none => return false

/-- Does `p` hold of an item together with those after it? -/
def anyWithRest {α : Type} (p : α → List α → Except AccessFault Bool) :
    List α → Except AccessFault Bool
  | [] => return false
  | item :: rest => do
    if ← p item rest then return true else anyWithRest p rest

namespace Selector

variable {α : Type} (view : View α)

/-- Does a thing stand to a list's end as `edge` asks? -/
def isEdge (last : Bool) (thing : α) (above : List α) : Except AccessFault Bool := do
  match above with
  | [] => return false
  | parent :: _ =>
    match ← view.siblings? thing parent with
    | some (items, place) => return if last then place + 1 == items.length else place == 0
    | none => return false

/-- Is there a thing for which `p` holds and to which `thing` stands so? -/
def relates (combinator : Combinator) (p : α → List α → Except AccessFault Bool) (thing : α)
    (above : List α) : Except AccessFault Bool := do
  match combinator, above with
  | .descendant, _ => anyWithRest p above
  | _, [] => return false
  | .child, parent :: rest => p parent rest
  | .next, parent :: _ =>
    match ← view.siblings? thing parent with
    | some (items, place + 1) =>
      match items[place]? with
      | some item => p item above
      | none => return false
    | _ => return false
  | .later, parent :: _ =>
    match ← view.siblings? thing parent with
    | some (items, place) => (items.take place).anyM fun item => p item above
    | none => return false

mutual

/-- Does the selector select a thing, given what stands above it and the thing
that the selector around is asked about? -/
def selects : Selector → α → List α → Option α → Except AccessFault Bool
  | .any, _, _, _ => return true
  | .kind name, thing, _, _ => return view.kind? thing == some name
  | .attributeIs path test, thing, _, _ => test.holds view (view.follow? thing path)
  | .allOf parts, thing, above, subject => selectsAll parts thing above subject
  | .noneOf selectors, thing, above, subject =>
    return !(← selectsSome selectors thing above subject)
  | .oneOf selectors, thing, above, subject => selectsSome selectors thing above subject
  | .having selectors, thing, above, _ => do
    ((← view.walk thing).drop 1).anyM fun (inner, between) =>
      selectsSome selectors inner (between ++ above) (some thing)
  | .edge last, thing, above, _ => isEdge view last thing above
  | .scope, thing, _, subject => return (subject.map (view.same thing)).getD (view.isNull thing)
  | .joined combinator left right, thing, above, subject => do
    if ← selects right thing above subject then
      relates view combinator (fun other rest => selects left other rest subject) thing above
    else return false

/-- Do all selectors select a thing? -/
def selectsAll : List Selector → α → List α → Option α → Except AccessFault Bool
  | [], _, _, _ => return true
  | selector :: rest, thing, above, subject => do
    if ← selects selector thing above subject then selectsAll rest thing above subject
    else return false

/-- Does one of the selectors select a thing? -/
def selectsSome : List Selector → α → List α → Option α → Except AccessFault Bool
  | [], _, _, _ => return false
  | selector :: rest, thing, above, subject => do
    if ← selects selector thing above subject then return true
    else selectsSome rest thing above subject

end

end Selector

/-- Why a query has no answer. -/
inductive QueryFault where
  | reading (error : SelectorError)
  | access (fault : AccessFault)
deriving DecidableEq, Repr

namespace View

variable {α : Type} (view : View α)

/-- The things that `p` holds of, each once, where it is met first. -/
def collect (p : α → List α → Except AccessFault Bool) :
    List α → List (α × List α) → Except AccessFault (List α)
  | _, [] => return []
  | found, (thing, above) :: rest => do
    if found.any (view.same thing) then collect p found rest
    else if ← p thing above then return thing :: (← collect p (thing :: found) rest)
    else collect p found rest

/-- What selectors select below a root, in the order of a walk, each thing once. -/
def select (root : α) (selectors : List Selector) : Except AccessFault (List α) := do
  view.collect (fun thing above => Selector.selectsSome view selectors thing above none) []
    (← view.walk root)

/-- What the selectors in a text select. -/
def query (root : α) (text : String) : Except QueryFault (List α) := do
  let selectors ← (Selector.read text.toList).mapError .reading
  (view.select root selectors).mapError .access

end View

end DocTypes
