import DocTypes.Selector.Match
import DocTypes.Tree.Node

/-!
# Passes and hooks

A pass edits a program and can fail; what it did up to there stays. Some passes ask hooks: a hook
answers with a text to use, or with nothing to keep the default. Its reply is a function of its
context and of all that the hooks were asked before, so it may keep a state of its own. It may also
have type casts made. Every call of a hook is noted.

What a pass asks of a program and does to it is the class `Editable`, so that a pass works on
programs however they are kept.
-/

namespace DocTypes

/-- What a hook is told about a class. -/
structure ClassContext where
  className : String
  superClassName : Option String
deriving DecidableEq, Repr

/-- What a hook is told about a method's parameter. -/
structure ParamContext where
  className : String
  methodName : String
  paramName : String
  defaultType : String
deriving DecidableEq, Repr

/-- What a hook answers. -/
inductive HookAnswer where
  /-- the default is to be kept -/
  | keep
  /-- the text to use; an empty one keeps the default -/
  | text (value : String)
  /-- something that is no text, by the name of its type -/
  | misfit (type : String)
  /-- the hook itself failed -/
  | failure (kind message : String)
deriving DecidableEq, Repr

/-- What a hook is asked about. -/
inductive HookContext where
  | ofClass (context : ClassContext)
  | ofParam (context : ParamContext)
deriving DecidableEq, Repr

/-- What a hook does: it has casts to these types made, one after the other, and answers. -/
structure HookReply where
  casts : List String := []
  answer : HookAnswer := .keep
deriving DecidableEq, Repr

/-- A hook. It is also told what the hooks were asked before, the last one first. -/
abbrev Hook (context : Type) := List HookContext → context → HookReply

/-- The hooks of a run. -/
structure Hooks where
  classHook : Option (Hook ClassContext) := none
  paramHook : Option (Hook ParamContext) := none

/-- A call of a hook, with the texts of the casts that it had made. -/
structure HookCall where
  context : HookContext
  casts : List String
deriving DecidableEq, Repr

/-- What a program has that a pass cannot handle. -/
inductive ShapeCause where
  | recursiveTypedef (name : String)
  | unattachedExport
  | exportOn (kind : String)
  | exportOf (shape : String)
  | namelessClass
  | classMember (kind className : String)
  | namelessSuperClass (className : String)
deriving DecidableEq, Repr

/-- The wording of a cause. -/
def ShapeCause.text : ShapeCause → String
  | .recursiveTypedef name => "recursive local typedef '" ++ name ++ "'"
  | .unattachedExport => "@export block is not attached to a statement"
  | .exportOn kind => "@export on " ++ kind ++ ", expected a return statement"
  | .exportOf shape => "@export returns " ++ shape ++ ", expected a class expression"
  | .namelessClass => "exported class has no name"
  | .classMember kind className => "unsupported class member " ++ kind ++ " in " ++ className
  | .namelessSuperClass className => "cannot name the superclass of " ++ className

/-- Why a pass failed. -/
inductive PassFault where
  /-- the program has a shape that the pass cannot handle; what was not read has no position -/
  | shape (cause : ShapeCause) (mark : Option Mark)
  /-- two local typedefs share a name -/
  | ambiguous (name : String) (firstLine secondLine : Option Int)
  | selecting (error : SelectorError)
  | typing (error : TypeError)
  /-- a hook answered with something that is no text -/
  | misfit (type : String)
  /-- a hook failed -/
  | hook (kind message : String)
  /-- a part is missing or does not fit -/
  | access (fault : AccessFault)
deriving DecidableEq, Repr

/-- The start of a line. Lines count from one, and line zero is nowhere. -/
def lineStart? : Option Int → Option Mark
  | none | some 0 => none
  | some line => some ⟨line, 1⟩

/-- The number of a line, if it has one. -/
def lineText : Option Int → String
  | some line => toString line
  | none => "None"

/-- A message with the place it speaks of, if there is one. -/
def locate? (mark : Option Mark) (message : String) : String :=
  match mark with
  | some mark => mark.locate message
  | none => message

/-- The name of the kind of a pass's fault. -/
def PassFault.kind : PassFault → String
  | .shape _ _ => "UnsupportedShapeError"
  | .ambiguous _ _ _ => "AmbiguousTypedefError"
  | .selecting _ => "SelectorError"
  | .typing _ => "TypeParseError"
  | .misfit _ => "TypeError"
  | .hook kind _ => kind
  | .access fault => fault.kind

/-- What is reported of a pass's fault. -/
def PassFault.message? : PassFault → Option String
  | .shape cause mark => some (locate? mark cause.text)
  | .ambiguous name firstLine secondLine =>
    some (locate? (lineStart? secondLine)
      ("local typedef '" ++ name ++ "' already defined at line " ++ lineText firstLine))
  | .selecting error => some error.message
  | .typing error => some error.message
  | .misfit type => some ("strategy must return a string or None, got " ++ type)
  | .hook _ message => some message
  | .access _ => none

/-- The fault of a pass whose query has no answer. -/
def PassFault.ofQuery : QueryFault → PassFault
  | .reading error => .selecting error
  | .access fault => .access fault

/-- What a tag says of a method. -/
inductive TagRole where
  | parameter (name : String) (optional : Bool)
  | result
  | other
deriving DecidableEq, Repr

/-- What a tag that names a type says. -/
structure TypedefFacts (κ : Type) where
  name : String
  key : κ
  /-- is the name a text? An edit may have made it a number -/
  isText : Bool := true

/-- A program that passes can work on. Its parts are known by `α`, and its types by keys `κ`. -/
class Editable (σ : Type) (α κ : outParam Type) where
  /-- what the selectors in a text select -/
  select : σ → String → Except QueryFault (List α)
  /-- what a tag says that has a name and a type -/
  typedef? : σ → α → Except AccessFault (Option (TypedefFacts κ))
  /-- the line on which a part stands -/
  line : σ → α → Except AccessFault (Option Int)
  /-- the key of a type -/
  keyOf : σ → α → Except AccessFault κ
  /-- the keys reachable from a key -/
  reachable : σ → κ → Except AccessFault (List κ)
  /-- gives the type with the first key what the type with the second one holds -/
  replaceType : κ → κ → σ → Except AccessFault σ
  /-- takes a tag out of its block -/
  removeTag : α → σ → Except AccessFault σ
  /-- unregisters blocks; the answer also tells how many of them were registered -/
  unregister : List α → σ → Except AccessFault (Nat × σ)
  /-- the node that a block belongs to, unless it belongs to the program as a whole -/
  owner? : σ → α → Except AccessFault (Option Node)
  /-- the tags of the block that documents a node -/
  docTags? : σ → Node → Except AccessFault (Option (List α))
  /-- what a tag says of a method -/
  role : σ → α → Except AccessFault TagRole
  /-- the type of a tag as it now reads -/
  typeText : σ → α → Except AccessFault String
  /-- where a value starts in the source -/
  mark? : σ → Value → Except AccessFault (Option Mark)
  /-- makes a type cast, and gives the text of its block -/
  cast : String → σ → Except PassFault (String × σ)
  /-- makes a block that gives a type a name -/
  typedef : String → String → σ → Except AccessFault (α × σ)
  /-- puts blocks at the end of the program -/
  append : List α → σ → Except AccessFault σ

/-- What a pass works on: the program, and the calls of hooks so far, the last one first. -/
structure PassState (σ : Type) where
  program : σ
  calls : List HookCall := []

/-- What the hooks were asked so far, the last one first. -/
def PassState.asked {σ : Type} (state : PassState σ) : List HookContext :=
  state.calls.map HookCall.context

/-- A pass over a program. When it fails, its state is kept. -/
abbrev Pass (σ : Type) := ExceptT PassFault (StateM (PassState σ))

namespace Pass

variable {σ α κ : Type} [Editable σ α κ]

/-- The program as it is now. -/
def program : Pass σ σ :=
  return (← get).program

/-- Asks the program. -/
def ask {β : Type} (question : σ → Except AccessFault β) : Pass σ β := do
  match question (← program) with
  | .ok answer => return answer
  | .error fault => throw (.access fault)

/-- Changes the program, with an answer. -/
def perform {β : Type} (edit : σ → Except PassFault (β × σ)) : Pass σ β := do
  match edit (← program) with
  | .ok (answer, program) =>
    modify fun state => { state with program }
    return answer
  | .error fault => throw fault

/-- Changes the program. -/
def change (edit : σ → Except AccessFault σ) : Pass σ Unit :=
  perform fun program => ((edit program).map fun program => ((), program)).mapError .access

/-- What the selectors in a text select now. -/
def query (text : String) : Pass σ (List α) := do
  match Editable.select (← program) text with
  | .ok parts => return parts
  | .error fault => throw (.ofQuery fault)

/-- Notes a call of a hook. -/
def note (call : HookCall) : Pass σ Unit :=
  modify fun state => { state with calls := call :: state.calls }

/-- Makes casts to types until one fails. The answer gives the texts of those that were made. -/
def makeCasts : List String → Pass σ (List String × Option PassFault)
  | [] => return ([], none)
  | typeText :: rest => do
    match Editable.cast typeText (← program) with
    | .error fault => return ([], some fault)
    | .ok (text, program) =>
      modify fun state => { state with program }
      let (later, fault?) ← makeCasts rest
      return (text :: later, fault?)

/-- Carries out what a hook does. The call is noted in any case. -/
def consult (context : HookContext) (reply : HookReply) : Pass σ (Option String) := do
  let (casts, fault?) ← makeCasts reply.casts
  note ⟨context, casts⟩
  match fault?, reply.answer with
  | some fault, _ => throw fault
  | none, .keep => return none
  | none, .text value => return if value == "" then none else some value
  | none, .misfit type => throw (.misfit type)
  | none, .failure kind message => throw (.hook kind message)

/-- Asks a hook, if there is one. -/
def askHook {γ : Type} (hook? : Option (Hook γ)) (kind : γ → HookContext) (context : γ) :
    Pass σ (Option String) := do
  match hook? with
  | none => return none
  | some hook => consult (kind context) (hook (← get).asked context)

end Pass

end DocTypes
