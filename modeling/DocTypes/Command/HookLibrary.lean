import DocTypes.Command.Arguments
import DocTypes.Pass.Hooks

/-!
# Hooks by name

On the command line a hook is named by a module and a member of it. A member is a hook for the
contexts of one kind and has a name of its own then, or it is a function that is taken for a hook,
or it is neither of them.
-/

namespace DocTypes

/-- What a member of a module is as a hook for contexts of one kind. -/
inductive Offer (context : Type) where
  | hook (name : String) (hook : Hook context)
  | function (hook : Hook context)
  | neither

/-- A member of a module. -/
structure HookMember where
  name : String
  forClass : Offer ClassContext
  forParam : Offer ParamContext

/-- A module of hooks. -/
structure HookModule where
  name : String
  members : List HookMember

/-- The modules that hooks are looked for in. -/
abbrev HookLibrary := List HookModule

namespace HookLibrary

/-- A text at its first `c`: what is before it and what is after it. -/
def cut (c : Char) (text : String) : String × Option String :=
  match text.toList.span (· != c) with
  | (before, _ :: after) => (String.ofList before, some (String.ofList after))
  | (before, []) => (String.ofList before, none)

/-- The module of a name. Of a dotted name the first part is looked for first, and no module holds
another one. -/
def module (library : HookLibrary) (name : String) : Except UsageFault HookModule :=
  let (first, inner?) := cut '.' name
  if first == "" then .error .relativeModule
  else
    match library.find? fun module => module.name == first, inner? with
    | none, _ => .error (.noModule name first)
    | some module, none => .ok module
    | some _, some inner => .error (.notPackage name (first ++ "." ++ (cut '.' inner).1) first)

/-- The member that a text names. -/
def member (library : HookLibrary) (spec : String) : Except UsageFault HookMember := do
  match cut ':' spec with
  | (moduleName, some name) =>
    if moduleName == "" || name == "" then throw (.malformedHook spec)
    let module ← library.module moduleName
    match module.members.find? fun member => member.name == name with
    | some member => return member
    | none => throw (.noMember moduleName name)
  | (_, none) => throw (.malformedHook spec)

/-- The hook for classes that a text names. -/
def classHook (library : HookLibrary) (spec : String) : Except UsageFault (Offer ClassContext) := do
  match (← library.member spec).forClass with
  | .neither => throw (.notCallable "class" spec)
  | offer => return offer

/-- The hook for parameters that a text names. -/
def paramHook (library : HookLibrary) (spec : String) : Except UsageFault (Offer ParamContext) := do
  match (← library.member spec).forParam with
  | .neither => throw (.notCallable "param" spec)
  | offer => return offer

end HookLibrary

/-- The hook in an offer. -/
def Offer.hook? {context : Type} : Offer context → Option (Hook context)
  | .hook _ chosen => some chosen
  | .function chosen => some chosen
  | .neither => none

end DocTypes
