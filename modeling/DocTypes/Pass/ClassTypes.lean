import DocTypes.Pass.Typedefs
import DocTypes.Program.Attribute
import DocTypes.Tree.Text

/-!
# Types of exported classes

A block with `@export` before `return class …` asks for a named type with the methods of the class.
`Pass.synthesize` puts a typedef for each such class at the end of the program: an object type with
one signature for each method, joined with the class above it.
-/

namespace DocTypes

/-- The type with these signatures, joined with a supertype perhaps. -/
def classType (signatures : List String) (supertype : Option String) : String :=
  let members :=
    if signatures.isEmpty then "\x7b\x7d"
    else "\x7b\n  " ++ ";\n  ".intercalate signatures ++ "\n\x7d"
  match supertype with
  | some supertype => members ++ " & " ++ supertype
  | none => members

/-- The dotted name that an expression is, `levels` layers deep. -/
def Node.dottedNameTo : Nat → Node → Option String
  | 0, _ => none
  | levels + 1, node =>
    match node.kind with
    | .identifier => (node.get .name).text?
    | .memberExpression => do
      guard !(node.get .computed).isTrue
      let object ← (node.get .object).node?
      let head ← dottedNameTo levels object
      let property ← (node.get .property).node?
      guard (property.kind == .identifier)
      return head ++ "." ++ (← (property.get .name).text?)
    | _ => none

/-- The dotted name that an expression is, if it is one. -/
def Value.dottedName? (value : Value) : Option String := do
  let node ← value.node?
  node.dottedNameTo node.height

namespace Pass

/-- Selects the blocks with a tag `@export`. -/
def exportBlocks : String :=
  "DocBlock:has(> DocTag[tag=\"export\"])"

variable {σ α κ : Type} [Editable σ α κ]

/-- Fails at a value. -/
def unsupported {β : Type} (value : Value) (cause : ShapeCause) : Pass σ β := do
  throw (.shape cause (← ask fun program => Editable.mark? program value))

/-- A field that has to be there. -/
def field (node : Node) (field : Field) : Pass σ Value :=
  match node.get? field with
  | some value => return value
  | none => throw (.access .noAttribute)

/-- The node that a value has to be. -/
def asNode : Value → Pass σ Node
  | .node node => return node
  | _ => throw (.access .noAttribute)

/-- The text that a value has to be. -/
def asText : Value → Pass σ String
  | .text text => return text
  | _ => throw (.access .misfit)

/-- The name of the kind of a value. -/
def kindText (value : Value) : Pass σ String :=
  match value.kindText? with
  | some kind => return kind
  | none => throw (.access .noAttribute)

/-- The name of a class's member. -/
def memberName (key : Node) : Pass σ String := do
  match key.kind with
  | .identifier => asText (← field key .name)
  | .privateIdentifier => return "#" ++ (← asText (← field key .name))
  | _ =>
    let raw ← field key .raw
    if raw.isTrue then asText raw
    else
      match (← field key .value).nameText with
      | .ok (some text) => return text
      | .ok none => throw (.access .misfit)
      | .error fault => throw (.access fault)

/-- A text without blanks at its ends, or `default` if nothing is left. -/
def trimmedOr (default text : String) : String :=
  let trimmed := String.ofList (trim text.toList)
  if trimmed == "" then default else trimmed

/-- The type of a tag without blanks at its ends, or `default` if nothing is left. -/
def typeOr (default : String) (tag : α) : Pass σ String := do
  return trimmedOr default (← ask fun program => Editable.typeText program tag)

/-- The signature of one parameter. -/
def parameter (hooks : Hooks) (className methodName : String) (tag : α) (name : String)
    (optional : Bool) : Pass σ String := do
  let default ← typeOr "any" tag
  let context : ParamContext := ⟨className, methodName, name, default⟩
  let choice ← askHook hooks.paramHook .ofParam context
  return name ++ (if optional then "?" else "") ++ ": " ++ choice.getD default

/-- The signatures of the parameters that tags speak of, and the first tag that tells what the
method returns. -/
def parameters (hooks : Hooks) (className methodName : String) :
    List α → Pass σ (List String × Option α)
  | [] => return ([], none)
  | tag :: rest => do
    match ← ask fun program => Editable.role program tag with
    | .parameter name optional =>
      let first ← parameter hooks className methodName tag name optional
      let (later, result) ← parameters hooks className methodName rest
      return (first :: later, result)
    | .result =>
      let (later, _) ← parameters hooks className methodName rest
      return (later, some tag)
    | .other => parameters hooks className methodName rest

/-- The signature of a method, as its documentation gives it. -/
def signature (hooks : Hooks) (className : String) (member : Node) : Pass σ String := do
  let name ← memberName (← asNode (← field member .key))
  let static := if (← field member .isStatic).isTrue then "static " else ""
  match ← ask fun program => Editable.docTags? program member with
  | none => return static ++ name ++ ": () => void"
  | some tags =>
    let (parameters, result?) ← parameters hooks className name tags
    let result ← (do
      match result? with
      | some tag => typeOr "void" tag
      | none => return "void")
    return static ++ name ++ ": (" ++ ", ".intercalate parameters ++ ") => " ++ result

/-- The signatures of a class's methods. Computed members and the constructor have none. -/
def signatures (hooks : Hooks) (className : String) : List Value → Pass σ (List String)
  | [] => return []
  | member :: rest => do
    match member with
    | .node node =>
      if (node.get .computed).isTrue then signatures hooks className rest
      else if node.kind != .methodDefinition then
        unsupported member (.classMember node.kind.text className)
      else if (← field node .kind).isText "constructor" then signatures hooks className rest
      else
        let first ← signature hooks className node
        return first :: (← signatures hooks className rest)
    | _ => unsupported member (.classMember (← kindText member) className)

/-- The supertype of a class: what the hook says, or the name of the class above it. -/
def supertype (hooks : Hooks) (className : String) (superClass : Value) :
    Pass σ (Option String) := do
  let default := superClass.dottedName?
  let context : ClassContext := ⟨className, default⟩
  let choice ← askHook hooks.classHook .ofClass context
  match choice, default with
  | some choice, _ => return some choice
  | none, some default => return some default
  | none, none =>
    if superClass.isNull then return none
    else unsupported superClass (.namelessSuperClass className)

/-- The class that a block's owner returns. -/
def exportedClass (block : α) : Pass σ Node := do
  match ← ask fun program => Editable.owner? program block with
  | none =>
    let line ← ask fun program => Editable.line program block
    throw (.shape .unattachedExport (lineStart? line))
  | some owner =>
    if owner.kind != .returnStatement then
      unsupported (.node owner) (.exportOn owner.kind.text)
    let value ← field owner .argument
    match value with
    | .node node =>
      if node.kind != .classExpression then unsupported value (.exportOf node.kind.text)
      return node
    | .null => unsupported (.node owner) (.exportOf "empty return")
    | _ => unsupported value (.exportOf (← kindText value))

/-- The typedef for the class that a block exports. -/
def synthesizeOne (hooks : Hooks) (block : α) : Pass σ α := do
  let node ← exportedClass block
  let name ← field node .id
  if name.isNull then unsupported (.node node) .namelessClass
  let className ← asText (← field (← asNode name) .name)
  let body ← asNode (← field node .body)
  match (← field body .body).elements? with
  | none => throw (.access .misfit)
  | some members =>
    let signatures ← signatures hooks className members
    let supertype ← supertype hooks className (← field node .superClass)
    perform fun program =>
      (Editable.typedef className (classType signatures supertype) program).mapError .access

/-- Puts a typedef for every exported class at the end of the program. If one of them fails, none
is put there. The answer gives the blocks. -/
def synthesize (hooks : Hooks) : Pass σ (List α) := do
  let typedefs ← (← query exportBlocks).mapM (synthesizeOne hooks)
  change (Editable.append typedefs)
  return typedefs

/-- All passes, one after the other. -/
def all [BEq κ] (hooks : Hooks) : Pass σ Unit := do
  let _ ← inlineTypedefs
  let _ ← removeLocals
  let _ ← synthesize hooks

end Pass

end DocTypes
