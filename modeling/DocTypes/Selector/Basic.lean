/-!
# Selectors

A selector describes things in a program by their kinds, their attributes and where they stand.
-/

namespace DocTypes

/-- How two things stand to each other: below, right below, after, right after. -/
inductive Combinator where
  | descendant
  | child
  | later
  | next
deriving DecidableEq, Repr

/-- The sign of a combinator. -/
def Combinator.sign : Combinator → Char
  | .descendant => ' '
  | .child => '>'
  | .later => '~'
  | .next => '+'

/-- The combinator with a sign other than a blank. -/
def Combinator.ofSign? : Char → Option Combinator
  | '>' => some .child
  | '~' => some .later
  | '+' => some .next
  | _ => none

/-- What is asked of an attribute's value. -/
inductive AttributeTest where
  | present
  | equals (text : String)
  | differs (text : String)
deriving DecidableEq, Repr

/-- A selector. -/
inductive Selector where
  /-- anything -/
  | any
  /-- what has a kind -/
  | kind (name : String)
  /-- what has an attribute, found by following a path of names -/
  | attributeIs (path : List String) (test : AttributeTest)
  /-- what all parts select -/
  | allOf (parts : List Selector)
  /-- what has something that one of the selectors selects; in them `scope` is the thing itself -/
  | having (selectors : List Selector)
  /-- what none of the selectors selects -/
  | noneOf (selectors : List Selector)
  /-- what one of the selectors selects -/
  | oneOf (selectors : List Selector)
  /-- the first item of a list, or the last -/
  | edge (last : Bool)
  /-- the thing that the selector around is asked about -/
  | scope
  /-- what `right` selects, if it stands so to something that `left` selects -/
  | joined (combinator : Combinator) (left right : Selector)
deriving Repr

/-- Hangs a selector on the thing that the selector around is asked about. -/
def Selector.anchor (combinator : Combinator) : Selector → Selector
  | .joined inner left right => .joined inner (left.anchor combinator) right
  | selector => .joined combinator .scope selector

end DocTypes
