import DocTypes.Proofs.Program.Orderly

/-!
# Types of exported classes

What `Pass.synthesize` does to an orderly program, whatever the hooks answer. `Program.classText` is
the type that a class is given, and `Program.exportContexts` what the hooks are asked about the
class that a block exports: about each parameter of its methods, in the order of the members and of
their tags, and then about the class. Since an answer may depend on all that was asked before, each
text is that of its history (`withAsked`). `Tells` says of a part of the pass what it tells the
hooks, and that it only adds blocks and types to the program. So if the pass fails, the tree and the
registered blocks are as they were; if not, one typedef for each exported class is put at the end of
the body (`Orderly.run_synthesize`).
-/

namespace DocTypes

open List

/-- The text that an answer puts in the place of a default. -/
def HookReply.choice? (reply : HookReply) : Option String :=
  match reply.answer with
  | .text value => if value == "" then none else some value
  | _ => none

section
variable {γ ι : Type}

/-- What a hook puts in the place of a default, if there is a hook. -/
def Hook.choice? (hook? : Option (Hook γ)) (asked : List HookContext) (context : γ) :
    Option String :=
  hook?.bind fun hook => (hook asked context).choice?

/-- What is asked about contexts of one kind, if there is a hook for them. -/
def Hook.contexts (hook? : Option (Hook γ)) (kind : γ → HookContext) (contexts : List γ) :
    List HookContext :=
  if hook?.isSome then contexts.map kind else []

theorem Hook.contexts_nil (hook? : Option (Hook γ)) (kind : γ → HookContext) :
    contexts hook? kind [] = [] := by
  unfold contexts
  split <;> rfl

theorem Hook.contexts_cons (hook? : Option (Hook γ)) (kind : γ → HookContext) (context : γ)
    (rest : List γ) : contexts hook? kind (context :: rest) =
      contexts hook? kind [context] ++ contexts hook? kind rest := by
  unfold contexts
  split <;> rfl

/-- Items that the hooks are asked about one after the other, each with what they were asked before
it, the last one first. -/
def withAsked (about : ι → List HookContext) : List HookContext → List ι →
    List (List HookContext × ι)
  | _, [] => []
  | asked, item :: rest => (asked, item) :: withAsked about ((about item).reverse ++ asked) rest

end

namespace Tag

/-- The tag tells of a parameter that is no part of another one. -/
def isParameter (tag : Tag) : Bool :=
  tag.title == "param" && tag.name != "" && !tag.name.toList.contains '.'

/-- The tag tells what a method returns. -/
def isResult (tag : Tag) : Bool :=
  tag.title == "returns" || tag.title == "return"

theorem role_of_isParameter {tag : Tag} (h : tag.isParameter = true) :
    tag.role = .parameter tag.name tag.optional ∧ tag.isResult = false := by
  refine ⟨if_pos h, ?_⟩
  have htitle : tag.title = "param" := by
    rw [isParameter, Bool.and_assoc, Bool.and_eq_true] at h
    exact beq_iff_eq.1 h.1
  rw [isResult, htitle]
  decide

theorem role_of_not_isParameter {tag : Tag} (h : tag.isParameter = false) :
    tag.role = if tag.isResult then .result else .other :=
  if_neg (Bool.eq_false_iff.1 h)

end Tag

namespace Node

/-- The name of a class. -/
def className? (node : Node) : Option String := do
  ((← (node.get .id).node?).get .name).text?

/-- The members of a class. -/
def members (node : Node) : List Node :=
  (((node.get .body).node?.bind fun body => (body.get .body).elements?).getD []).filterMap
    Value.node?

/-- The member has a signature: it is not computed, and no constructor. -/
def isSigned (member : Node) : Bool :=
  !(member.get .computed).isTrue && !(member.get .kind).isText "constructor"

/-- The name that a key gives a member. -/
def keyText? (key : Node) : Option String :=
  match key.kind with
  | .identifier => (key.get .name).text?
  | .privateIdentifier => (key.get .name).text?.map ("#" ++ ·)
  | _ =>
    if (key.get .raw).isTrue then (key.get .raw).text?
    else (key.get .value).nameText.toOption.join

/-- The name of a member. -/
def memberName (member : Node) : String :=
  ((member.get .key).node?.bind keyText?).getD ""

end Node

namespace Program

/-- The class that is returned where a block with `@export` stands. -/
def exportedClass? (program : Program) (id : Nat) : Option Node := do
  let owner ← (program.block? id).bind fun block => block.owner.bind program.node?
  let node ← (owner.get .argument).node?
  if owner.id != program.root.id && owner.kind == .returnStatement && node.kind == .classExpression
  then some node
  else none

/-- The tags that document a member. -/
def tagsOf (program : Program) (member : Node) : List Tag :=
  ((member.doc.bind program.block?).map Block.tags).getD []

/-- What a hook is asked about the parameter that a tag tells of. -/
def paramContext (program : Program) (className methodName : String) (tag : Tag) : ParamContext :=
  ⟨className, methodName, tag.name, Pass.trimmedOr "any" (tag.currentType program.types)⟩

/-- What the hooks are asked about the parameters that tags tell of. -/
def paramContexts (program : Program) (hooks : Hooks) (className methodName : String)
    (tags : List Tag) : List HookContext :=
  Hook.contexts hooks.paramHook .ofParam
    ((tags.filter Tag.isParameter).map (program.paramContext className methodName))

/-- What the hooks are asked about the parameters of a member. -/
def memberContexts (program : Program) (hooks : Hooks) (className : String) (member : Node) :
    List HookContext :=
  program.paramContexts hooks className member.memberName (program.tagsOf member)

/-- What a hook is asked about a class. -/
def classContext (className : String) (node : Node) : ClassContext :=
  ⟨className, (node.get .superClass).dottedName?⟩

/-- The signature of a parameter. -/
def paramText (program : Program) (hooks : Hooks) (className methodName : String)
    (asked : List HookContext) (tag : Tag) : String :=
  let context := program.paramContext className methodName tag
  tag.name ++ (if tag.optional then "?" else "") ++ ": " ++
    (Hook.choice? hooks.paramHook asked context).getD context.defaultType

/-- The signatures of the parameters that tags tell of. -/
def paramTexts (program : Program) (hooks : Hooks) (className methodName : String)
    (asked : List HookContext) (tags : List Tag) : List String :=
  (withAsked (fun tag => Hook.contexts hooks.paramHook .ofParam
      [program.paramContext className methodName tag]) asked (tags.filter Tag.isParameter)).map
    fun (asked, tag) => program.paramText hooks className methodName asked tag

/-- What a method returns. -/
def resultText (program : Program) (tags : List Tag) : String :=
  ((tags.find? Tag.isResult).map fun tag =>
    Pass.trimmedOr "void" (tag.currentType program.types)).getD "void"

/-- The signature of a member. -/
def signatureText (program : Program) (hooks : Hooks) (className : String)
    (asked : List HookContext) (member : Node) : String :=
  let tags := program.tagsOf member
  (if (member.get .isStatic).isTrue then "static " else "") ++ member.memberName ++ ": (" ++
    ", ".intercalate (program.paramTexts hooks className member.memberName asked tags) ++
      ") => " ++ program.resultText tags

/-- The signatures of members that have one. -/
def signatureTexts (program : Program) (hooks : Hooks) (className : String)
    (asked : List HookContext) (members : List Node) : List String :=
  (withAsked (program.memberContexts hooks className) asked members).map
    fun (asked, member) => program.signatureText hooks className asked member

/-- The type that a class is given: one signature for each member that has one, in their order,
joined with the supertype. -/
def classText (program : Program) (hooks : Hooks) (className : String) (asked : List HookContext)
    (node : Node) : String :=
  let context := classContext className node
  let members := node.members.filter Node.isSigned
  let askedOfMembers := members.flatMap (program.memberContexts hooks className)
  classType (program.signatureTexts hooks className asked members)
    ((Hook.choice? hooks.classHook (askedOfMembers.reverse ++ asked) context).or
      context.superClassName)

/-- What the hooks are asked about a class. -/
def classContexts (program : Program) (hooks : Hooks) (className : String) (node : Node) :
    List HookContext :=
  (node.members.filter Node.isSigned).flatMap (program.memberContexts hooks className) ++
    Hook.contexts hooks.classHook .ofClass [classContext className node]

/-- What the hooks are asked about the class that a block exports. -/
def exportContexts (program : Program) (hooks : Hooks) (id : Nat) : List HookContext :=
  ((program.exportedClass? id).bind fun node =>
    node.className?.map fun className => program.classContexts hooks className node).getD []

/-- The new block is a typedef for the class that another one exports, as it is given its type by
hooks that were asked this before. -/
def Describes (program : Program) (hooks : Hooks) (after : Program)
    (exported : List HookContext × Nat) (new : Nat) : Prop :=
  ∃ node className block tag, program.exportedClass? exported.2 = some node ∧
    node.className? = some className ∧ after.block? new = some block ∧ block.tags = [tag] ∧
    tag.title = "typedef" ∧ tag.name = className ∧
    tag.typeText = program.classText hooks className exported.1 node

variable {program after : Program} {state : PassState Program} {β γ : Type}

/-! ## What parts of the pass tell the hooks -/

/-- On the way from one state to another the program grew, and the hooks were told this. -/
structure Moves (state : PassState Program) (told : List HookContext) (state' : PassState Program) :
    Prop where
  grows : state.program.Grows state'.program
  asked : state'.asked = told.reverse ++ state.asked

/-- From a state to which the program has grown, the pass tells the hooks this, or a part of it if
it fails, and only adds blocks and types. -/
def Tells (program : Program) (state : PassState Program) (pass : Pass Program β)
    (told : List HookContext) (post : β → Program → Prop) : Prop :=
  program.Grows state.program → ∃ (result : Except PassFault β) (after : Program)
    (called : List HookCall),
    pass.run.run state = (result, ⟨after, called.reverse ++ state.calls⟩) ∧
    state.program.Grows after ∧
    (∀ fault, result = .error fault → called.map HookCall.context <+: told) ∧
    ∀ answer, result = .ok answer → called.map HookCall.context = told ∧ post answer after

section
variable {told told' : List HookContext} {post : β → Program → Prop} {post' : γ → Program → Prop}

theorem tells_pure {answer : β} (h : post answer state.program) :
    program.Tells state (pure answer) [] post := by
  refine fun _ => ⟨.ok answer, state.program, [], rfl, .refl _, nofun, fun _ hanswer => ?_⟩
  cases hanswer
  exact ⟨rfl, h⟩

theorem tells_return {answer : β} :
    program.Tells state (pure answer) [] fun result _ => result = answer :=
  tells_pure rfl

theorem tells_throw {fault : PassFault} :
    program.Tells state (throw fault : Pass Program β) told post :=
  fun _ => ⟨.error fault, state.program, [], rfl, .refl _, fun _ _ => nil_prefix, nofun⟩

variable {first : Pass Program β} {next : β → Pass Program γ}

/-- Passes one after the other. -/
theorem Tells.bind (h : program.Tells state first told post)
    (hnext : ∀ answer state', Moves state told state' → post answer state'.program →
      program.Tells state' (next answer) told' post') :
    program.Tells state (first >>= next) (told ++ told') post' := by
  intro hgrows
  obtain ⟨result, after, called, hrun, hafter, herror, hok⟩ := h hgrows
  rw [Pass.run_bind, hrun]
  cases result with
  | error fault =>
    refine ⟨.error fault, after, called, rfl, hafter, fun _ _ => ?_, nofun⟩
    exact (herror fault rfl).trans (prefix_append _ _)
  | ok answer =>
    obtain ⟨hcalled, hpost⟩ := hok answer rfl
    have hmoves : Moves state told ⟨after, called.reverse ++ state.calls⟩ :=
      ⟨hafter, by rw [PassState.asked, map_append, map_reverse, hcalled, PassState.asked]⟩
    obtain ⟨result, later, called', hrun', hlater, herror', hok'⟩ :=
      hnext answer _ hmoves hpost (hgrows.trans hafter)
    refine ⟨result, later, called ++ called', ?_, hafter.trans hlater, ?_, ?_⟩
    · rw [reverse_append, append_assoc]
      exact hrun'
    · intro fault hfault
      rw [map_append, hcalled]
      exact (prefix_append_right_inj _).2 (herror' fault hfault)
    · intro answer hanswer
      rw [map_append, hcalled, (hok' answer hanswer).1]
      exact ⟨rfl, (hok' answer hanswer).2⟩

/-- A pass after one that tells the hooks nothing. -/
theorem Tells.andThen (h : program.Tells state first [] post)
    (hnext : ∀ answer state', Moves state [] state' → post answer state'.program →
      program.Tells state' (next answer) told post') :
    program.Tells state (first >>= next) told post' :=
  h.bind hnext

/-- A pass before one that tells the hooks nothing. -/
theorem Tells.andLast (h : program.Tells state first told post)
    (hnext : ∀ answer state', Moves state told state' → post answer state'.program →
      program.Tells state' (next answer) [] post') :
    program.Tells state (first >>= next) told post' := by
  have hboth := h.bind hnext
  rwa [append_nil] at hboth

/-- A question whose answer does not change while the program grows. -/
theorem tells_ask {question : Program → Except AccessFault β} {answer? : Except AccessFault β}
    (h : ∀ after, program.Grows after → question after = answer?) :
    program.Tells state (Pass.ask question) [] fun answer _ => answer? = .ok answer := by
  intro hgrows
  have hanswer := h state.program hgrows
  cases answer? with
  | error fault =>
    refine ⟨.error (.access fault), state.program, [], ?_, .refl _, fun _ _ => nil_prefix,
      nofun⟩
    rw [Pass.run_ask, hanswer]
    rfl
  | ok answer =>
    refine ⟨.ok answer, state.program, [], ?_, .refl _, nofun, fun _ heq => ?_⟩
    · rw [Pass.run_ask, hanswer]
      rfl
    · cases heq
      exact ⟨rfl, rfl⟩

/-- A question whose answer does not matter. -/
theorem tells_ask_any {question : Program → Except AccessFault β} :
    program.Tells state (Pass.ask question) [] fun _ _ => True := by
  intro _
  refine ⟨_, state.program, [], Pass.run_ask question state, .refl _, fun _ _ => nil_prefix,
    fun _ _ => ⟨rfl, trivial⟩⟩

/-- What the pass cannot handle. -/
theorem tells_unsupported {value : Value} {cause : ShapeCause} :
    program.Tells state (Pass.unsupported value cause : Pass Program β) told post :=
  tells_ask_any.andThen fun _ _ _ _ => tells_throw

theorem tells_unsupported_bind {value : Value} {cause : ShapeCause} :
    program.Tells state (Pass.unsupported value cause >>= next) told post' :=
  Tells.andThen (show program.Tells state _ [] fun _ _ => False from tells_unsupported)
    fun _ _ _ => False.elim

/-- The program is looked at. -/
theorem tells_program {next : Program → Pass Program γ}
    (h : program.Tells state (next state.program) told post') :
    program.Tells state (Pass.program >>= next) told post' :=
  h

/-- The program grows. -/
theorem tells_modify (h : state.program.Grows after) :
    program.Tells state (modify fun state => { state with program := after }) []
      fun _ _ => True :=
  fun _ => ⟨.ok (), after, [], rfl, h, nofun, fun _ _ => ⟨rfl, trivial⟩⟩

/-- A call of a hook is noted. -/
theorem tells_note {call : HookCall} :
    program.Tells state (Pass.note call) [call.context] fun _ _ => True :=
  fun _ => ⟨.ok (), state.program, [call], rfl, .refl _, nofun, fun _ _ => ⟨rfl, trivial⟩⟩

/-- Casts are made, until one fails. -/
theorem tells_makeCasts : ∀ (types : List String) (state : PassState Program),
    program.Tells state (Pass.makeCasts types) [] fun _ _ => True
  | [], _ => tells_pure trivial
  | type :: rest, state => by
    rw [Pass.makeCasts]
    refine tells_program ?_
    cases hcast : Editable.cast type state.program with
    | error fault => exact tells_pure trivial
    | ok outcome =>
      obtain ⟨text, after⟩ := outcome
      refine (tells_modify (grows_castText hcast)).andThen fun _ state' _ _ => ?_
      exact (tells_makeCasts rest state').andThen fun _ _ _ _ => tells_pure trivial

/-- What a hook does. -/
theorem tells_consult {context : HookContext} {reply : HookReply} :
    program.Tells state (Pass.consult context reply) [context] fun answer _ =>
      answer = reply.choice? := by
  refine (tells_makeCasts reply.casts state).andThen fun outcome state' _ _ => ?_
  obtain ⟨casts, fault?⟩ := outcome
  refine Tells.andLast (tells_note : program.Tells state' _ [context] _) fun _ _ _ _ => ?_
  cases fault? with
  | some fault => exact tells_throw
  | none =>
    unfold HookReply.choice?
    cases reply.answer with
    | keep => exact tells_pure rfl
    | text value => exact tells_pure rfl
    | misfit type => exact tells_throw
    | failure kind message => exact tells_throw

/-- A hook is asked, if there is one. -/
theorem tells_askHook {δ : Type} {hook? : Option (Hook δ)} {kind : δ → HookContext} {context : δ} :
    program.Tells state (Pass.askHook hook? kind context) (Hook.contexts hook? kind [context])
      fun answer _ => answer = Hook.choice? hook? state.asked context := by
  cases hook? with
  | none => exact tells_return
  | some hook => exact fun hgrows => tells_consult hgrows

/-- An edit that lets the program grow. -/
theorem tells_perform {edit : Program → Except PassFault (β × Program)}
    (h : ∀ answer after, edit state.program = .ok (answer, after) →
      state.program.Grows after ∧ post answer after) :
    program.Tells state (Pass.perform edit) [] post := by
  intro _
  rw [Pass.run_perform]
  cases hedit : edit state.program with
  | error fault =>
    exact ⟨.error fault, state.program, [], rfl, .refl _, fun _ _ => nil_prefix, nofun⟩
  | ok outcome =>
    obtain ⟨answer, after⟩ := outcome
    obtain ⟨hgrows, hpost⟩ := h answer after hedit
    refine ⟨.ok answer, after, [], rfl, hgrows, nofun, fun _ heq => ?_⟩
    cases heq
    exact ⟨rfl, hpost⟩

end

/-! ## What is read off the tree -/

section
variable {told : List HookContext} {post : β → Program → Prop} {value : Value}

theorem tells_field {node : Node} {field : Field} {next : Value → Pass Program β}
    (h : program.Tells state (next (node.get field)) told post) :
    program.Tells state (Pass.field node field >>= next) told post := by
  rw [Node.get] at h
  rw [Pass.field]
  cases hvalue : node.get? field with
  | none => exact tells_throw
  | some value =>
    rw [hvalue] at h
    exact h

theorem tells_asNode {next : Node → Pass Program β}
    (h : ∀ node, value = .node node → program.Tells state (next node) told post) :
    program.Tells state (Pass.asNode value >>= next) told post := by
  cases value with
  | node node => exact h node rfl
  | _ => exact tells_throw

theorem tells_asText {next : String → Pass Program β}
    (h : ∀ text, value = .text text → program.Tells state (next text) told post) :
    program.Tells state (Pass.asText value >>= next) told post := by
  cases value with
  | text text => exact h text rfl
  | _ => exact tells_throw

theorem tells_kindText_bind {next : String → Pass Program β}
    (h : ∀ text, program.Tells state (next text) told post) :
    program.Tells state (Pass.kindText value >>= next) told post := by
  rw [Pass.kindText]
  cases value.kindText? with
  | none => exact tells_throw
  | some text => exact h text

end

/-- The name of a member. -/
theorem tells_memberName {key : Node} :
    program.Tells state (Pass.memberName key) [] fun name _ => key.keyText? = some name := by
  have hasText (value : Value) : program.Tells state (Pass.asText value) []
      fun text _ => value.text? = some text := by
    cases value with
    | text text => exact tells_pure rfl
    | _ => exact tells_throw
  unfold Pass.memberName
  split
  · rename_i hkind
    rw [show key.keyText? = (key.get .name).text? by rw [Node.keyText?, hkind]]
    exact tells_field (hasText _)
  · rename_i hkind
    rw [show key.keyText? = (key.get .name).text?.map ("#" ++ ·) by rw [Node.keyText?, hkind]]
    refine tells_field (tells_asText fun text htext => tells_pure ?_)
    rw [htext]
    rfl
  · rename_i hidentifier hprivate
    have hother : key.keyText? = if (key.get .raw).isTrue then (key.get .raw).text?
        else (key.get .value).nameText.toOption.join := by
      unfold Node.keyText?
      split
      · exact absurd ‹_› hidentifier
      · exact absurd ‹_› hprivate
      · rfl
    rw [hother]
    refine tells_field ?_
    split
    · exact hasText _
    · refine tells_field ?_
      cases (key.get .value).nameText with
      | error fault => exact tells_throw
      | ok text? =>
        cases text? with
        | none => exact tells_throw
        | some text => exact tells_pure rfl

/-! ## Signatures -/

/-- A tag names a type that is there. -/
def HasType (program : Program) (tag : Tag) : Prop :=
  ∀ key, tag.typeKey = some key → key < program.types.slots.size

variable {tag : Tag} {id : Nat} {state : PassState Program}

/-- The types of tags read the same while the program grows. -/
theorem Grows.currentType (h : program.Orderly) (hgrows : program.Grows after)
    (htag : program.HasType tag) : tag.currentType after.types = tag.currentType program.types :=
  Tag.currentType_extends hgrows.types.kept h.types (hgrows.types.closed h.types) h.grounded htag

theorem tells_typeOr (h : program.Orderly) (htag : program.HasType tag) (default : String) :
    program.Tells state (Pass.typeOr default (.tag tag)) [] fun text _ =>
      text = Pass.trimmedOr default (tag.currentType program.types) := by
  have hask : ∀ after, program.Grows after →
      Editable.typeText after (Value.tag tag) = .ok (tag.currentType program.types) :=
    fun _ hgrows => congrArg Except.ok (hgrows.currentType h htag)
  refine (tells_ask hask).andThen fun text _ _ htext => tells_pure ?_
  cases htext
  rfl

variable {hooks : Hooks} {className methodName : String}

/-- A parameter: its hook is asked, if there is one. -/
theorem tells_parameter (h : program.Orderly) (htag : program.HasType tag) :
    program.Tells state
      (Pass.parameter hooks className methodName (.tag tag) tag.name tag.optional)
      (Hook.contexts hooks.paramHook .ofParam [program.paramContext className methodName tag])
      fun text _ => text = program.paramText hooks className methodName state.asked tag := by
  refine (tells_typeOr h htag "any").andThen fun default state' hmoves hdefault => ?_
  subst hdefault
  refine tells_askHook.andLast fun choice _ _ hchoice => tells_pure ?_
  rw [hchoice, show state'.asked = state.asked from hmoves.asked, paramText, paramContext]

/-- The parameters that tags speak of, in their order, and the first tag for the result. -/
theorem tells_parameters (h : program.Orderly) : ∀ (tags : List Tag) (state : PassState Program),
    (∀ tag ∈ tags, program.HasType tag) →
    program.Tells state (Pass.parameters hooks className methodName (tags.map .tag))
      (program.paramContexts hooks className methodName tags)
      fun answer _ => answer = (program.paramTexts hooks className methodName state.asked tags,
        (tags.find? Tag.isResult).map .tag)
  | [], _, _ => by
    change program.Tells _ _ (Hook.contexts hooks.paramHook .ofParam []) _
    rw [Hook.contexts_nil]
    exact tells_return
  | tag :: rest, state, htags => by
    obtain ⟨htag, hrest⟩ := forall_mem_cons.1 htags
    have ih := fun state => tells_parameters h rest state hrest
    have hask : ∀ after, program.Grows after →
      Editable.role after (Value.tag tag) = .ok tag.role := fun _ _ => rfl
    refine (tells_ask hask).andThen fun role state' hmoves hrole => ?_
    have hasked : state'.asked = state.asked := hmoves.asked
    cases hrole
    rw [paramContexts, paramTexts]
    cases hparameter : tag.isParameter with
    | true =>
      obtain ⟨hrole, hresult⟩ := Tag.role_of_isParameter hparameter
      rw [hrole, filter_cons_of_pos hparameter, map_cons, Hook.contexts_cons,
        find?_cons_of_neg (by simp [hresult])]
      refine (tells_parameter h htag).bind fun text state'' hmoves' htext => ?_
      refine (ih state'').andLast fun later _ _ hlater => tells_pure ?_
      rw [htext, hlater, hmoves'.asked, hasked]
      rfl
    | false =>
      rw [Tag.role_of_not_isParameter hparameter, filter_cons_of_neg (by simp [hparameter])]
      cases hresult : tag.isResult with
      | true =>
        rw [find?_cons_of_pos hresult]
        refine (ih state').andLast fun later _ _ hlater => tells_pure ?_
        rw [hlater, hasked]
        rfl
      | false =>
        rw [find?_cons_of_neg (by simp [hresult]), ← hasked]
        exact ih state'

/-- The tags that document a member stay while the program grows. -/
theorem Grows.docTagsOf? (hgrows : program.Grows after) {member : Node}
    (hdocs : member.DocsIn program.blocks.size) :
    after.docTagsOf? member = program.docTagsOf? member := by
  rw [Program.docTagsOf?, Program.docTagsOf?]
  cases hdoc : member.doc with
  | none => rfl
  | some id =>
    obtain ⟨block, hblock⟩ : ∃ block, program.block? id = some block :=
      ⟨_, Array.getElem?_eq_getElem (hdocs.here hdoc)⟩
    rw [Option.bind_some, Option.bind_some, hgrows.blocks id block hblock, hblock]

/-- The signature of a member. -/
theorem tells_signature (h : program.Orderly) {member : Node}
    (hdocs : member.DocsIn program.blocks.size) :
    program.Tells state (Pass.signature hooks className member)
      (program.memberContexts hooks className member)
      fun text _ => text = program.signatureText hooks className state.asked member := by
  refine tells_field (tells_asNode fun key hkey => ?_)
  refine tells_memberName.andThen fun name state₁ hmoves₁ hname => tells_field ?_
  have hmember : member.memberName = name := by
    rw [Node.memberName, hkey]
    exact congrArg (Option.getD · "") hname
  have hask : ∀ after, program.Grows after →
      Editable.docTags? after member = .ok (program.docTagsOf? member) :=
    fun _ hgrows => congrArg Except.ok (hgrows.docTagsOf? hdocs)
  refine (tells_ask hask).andThen fun tags? state₂ hmoves₂ htags => ?_
  cases htags
  have hasked : state₂.asked = state.asked := hmoves₂.asked.trans hmoves₁.asked
  rw [memberContexts, signatureText, tagsOf, Program.docTagsOf?, hmember]
  cases hblock : member.doc.bind program.block? with
  | none =>
    change program.Tells state₂ _ (Hook.contexts hooks.paramHook .ofParam []) _
    rw [Hook.contexts_nil]
    refine tells_pure ?_
    simp only [String.append_assoc]
    rfl
  | some block =>
    have hkeys : ∀ tag ∈ block.tags, program.HasType tag := by
      obtain ⟨id, -, hblock⟩ := Option.bind_eq_some_iff.1 hblock
      exact h.keys id block hblock
    refine (tells_parameters h block.tags state₂ hkeys).andLast fun answer _ _ hanswer => ?_
    subst hanswer
    rw [Option.map_some, Option.getD_some, resultText, hasked]
    cases hfind : block.tags.find? Tag.isResult with
    | none =>
      refine tells_return.andThen fun result _ _ hresult => tells_pure ?_
      rw [hresult, Option.map_none, Option.getD_none]
    | some tag =>
      have htag := hkeys tag (mem_of_find?_eq_some hfind)
      refine (tells_typeOr h htag "void").andThen fun result _ _ hresult => tells_pure ?_
      rw [hresult, Option.map_some, Option.getD_some]

/-- The signatures of the members that have one, in their order. -/
theorem tells_signatures (h : program.Orderly) : ∀ (values : List Value)
    (state : PassState Program),
    (∀ member, Value.node member ∈ values → member.DocsIn program.blocks.size) →
    program.Tells state (Pass.signatures hooks className values)
      (((values.filterMap Value.node?).filter Node.isSigned).flatMap
        (program.memberContexts hooks className))
      fun texts _ => texts = program.signatureTexts hooks className state.asked
        ((values.filterMap Value.node?).filter Node.isSigned)
  | [], _, _ => tells_return
  | value :: rest, state, hdocs => by
    have ih := fun state => tells_signatures h rest state fun member hmem =>
      hdocs member (.tail _ hmem)
    cases value with
    | node member =>
      have hnodes : (Value.node member :: rest).filterMap Value.node? =
          member :: rest.filterMap Value.node? := rfl
      have hskip (hsigned : member.isSigned = false) :
          ((Value.node member :: rest).filterMap Value.node?).filter Node.isSigned =
            (rest.filterMap Value.node?).filter Node.isSigned :=
        filter_cons_of_neg (Bool.eq_false_iff.1 hsigned)
      rw [Pass.signatures]
      split
      · rw [hskip (by simp [Node.isSigned, *])]
        exact ih state
      · split
        · exact tells_unsupported
        · refine tells_field ?_
          split
          · rw [hskip (by simp [Node.isSigned, *])]
            exact ih state
          · have hsigned : member.isSigned = true := by simp [Node.isSigned, *]
            rw [hnodes, filter_cons_of_pos hsigned, flatMap_cons]
            refine (tells_signature h (hdocs member (.head _))).bind
              fun text state' hmoves htext => ?_
            refine (ih state').andLast fun texts _ _ htexts => tells_pure ?_
            rw [htext, htexts, hmoves.asked]
            rfl
    | _ => exact tells_kindText_bind fun _ => tells_unsupported

/-- The supertype of a class: its hook is asked, if there is one. -/
theorem tells_supertype {superClass : Value} :
    program.Tells state (Pass.supertype hooks className superClass)
      (Hook.contexts hooks.classHook .ofClass [⟨className, superClass.dottedName?⟩])
      fun supertype _ => supertype = (Hook.choice? hooks.classHook state.asked
        ⟨className, superClass.dottedName?⟩).or superClass.dottedName? := by
  unfold Pass.supertype
  generalize superClass.dottedName? = default
  refine tells_askHook.andLast fun choice state' _ hchoice => ?_
  subst hchoice
  cases Hook.choice? hooks.classHook state.asked ⟨className, default⟩ with
  | some choice => exact tells_return
  | none =>
    cases default with
    | some default => exact tells_return
    | none =>
      cases superClass.isNull with
      | true => exact tells_return
      | false => exact tells_unsupported

/-! ## Typedefs for classes -/

/-- The node that a block belongs to stays while the program grows. -/
theorem Grows.ownerOf? (hgrows : program.Grows after) {block : Block}
    (hblock : program.block? id = some block) : after.ownerOf? (.block id) = .ok
      ((block.owner.bind program.node?).filter fun node => node.id != program.root.id) := by
  have hasBlock : after.asBlock (.block id) = .ok block := by
    rw [asBlock, blockId?, Option.bind_some, hgrows.blocks id block hblock]
  have hnode : after.node? = program.node? := by
    funext other
    rw [node?, hgrows.root]
    rfl
  rw [Program.ownerOf?, hasBlock, hgrows.root, hnode]
  rfl

/-- The class that a block exports. -/
theorem tells_exportedClass (h : program.Orderly) (hid : id ∈ program.registered) :
    program.Tells state (Pass.exportedClass (.block id)) [] fun node _ =>
      program.exportedClass? id = some node ∧ node.DocsIn program.blocks.size := by
  obtain ⟨block, hblock⟩ := h.registered id hid
  refine (tells_ask fun _ hgrows => hgrows.ownerOf? hblock).andThen fun owner? state' _ howner => ?_
  cases owner? with
  | none => exact tells_ask_any.andThen fun _ _ _ _ => tells_throw
  | some owner =>
    obtain ⟨hfound, hroot⟩ := Option.filter_eq_some_iff.1 (Except.ok.inj howner)
    have hdocs : owner.DocsIn program.blocks.size := by
      obtain ⟨number, -, hfind⟩ := Option.bind_eq_some_iff.1 hfound
      exact h.docs.of_find? hfind
    dsimp only
    split
    · exact tells_unsupported_bind
    · rename_i hkind
      refine tells_field ?_
      cases hvalue : owner.get .argument with
      | node node =>
        dsimp only
        split
        · exact tells_unsupported_bind
        · rename_i hclass
          refine tells_pure ⟨?_, hdocs.get hvalue⟩
          simp_all [exportedClass?, Value.node?]
      | null => exact tells_unsupported
      | _ => exact tells_kindText_bind fun _ => tells_unsupported

/-- The typedef for the class that a block exports. -/
theorem tells_synthesizeOne (h : program.Orderly) (hid : id ∈ program.registered) :
    program.Tells state (Pass.synthesizeOne hooks (.block id)) (program.exportContexts hooks id)
      fun value after => ∃ new, value = .block new ∧ state.program.blocks.size ≤ new ∧
        program.Describes hooks after (state.asked, id) new := by
  refine (tells_exportedClass h hid).andThen fun node state₁ hmoves₁ hnode => ?_
  obtain ⟨hclass, hdocs⟩ := hnode
  refine tells_field ?_
  split
  · exact tells_unsupported_bind
  · refine tells_asNode fun nameNode hnameNode => ?_
    refine tells_field (tells_asText fun className htext => ?_)
    refine tells_field (tells_asNode fun body hbody => tells_field ?_)
    have hname : node.className? = some className := by
      rw [Node.className?, hnameNode]
      exact congrArg Value.text? htext
    have htold : program.exportContexts hooks id = program.classContexts hooks className node := by
      rw [exportContexts, hclass, Option.bind_some, hname]
      rfl
    rw [htold]
    cases helements : (body.get .body).elements? with
    | none => exact tells_throw
    | some values =>
      have hvalues : node.members = values.filterMap Value.node? := by
        rw [Node.members, hbody]
        exact congrArg (fun values => (Option.getD values []).filterMap Value.node?) helements
      have hmembers : ∀ member, Value.node member ∈ values →
          member.DocsIn program.blocks.size :=
        fun member => (hdocs.get hbody).element helements
      rw [classContexts, hvalues]
      refine (tells_signatures h values _ hmembers).bind
        fun signatures state₂ hmoves₂ hsignatures => ?_
      refine tells_field (tells_supertype.andLast fun supertype state₃ hmoves₃ hsupertype => ?_)
      refine tells_perform fun answer after hedit => ?_
      cases mapError_eq_ok.1 hedit
      refine ⟨grows_addBlock rfl (by simp) nofun, _, rfl, ?_, node, className, _, _, hclass, hname,
        Array.getElem?_push_size, rfl, rfl, rfl, ?_⟩
      · exact (hmoves₁.grows.trans (hmoves₂.grows.trans hmoves₃.grows)).size
      · rw [hsignatures, hsupertype, classText, hvalues, hmoves₂.asked,
          show state₁.asked = state.asked from hmoves₁.asked]
        rfl

/-- A typedef stays while the program grows. -/
theorem Describes.grow {later : Program} {exported : List HookContext × Nat} {new : Nat}
    (h : program.Describes hooks after exported new) (hgrows : after.Grows later) :
    program.Describes hooks later exported new := by
  obtain ⟨node, className, block, tag, hclass, hname, hblock, htag⟩ := h
  exact ⟨node, className, block, tag, hclass, hname, hgrows.blocks new block hblock, htag⟩

/-- The typedefs for the classes that blocks export, one after the other. -/
theorem tells_synthesizeAll (h : program.Orderly) : ∀ (ids : List Nat) (state : PassState Program),
    (∀ id ∈ ids, id ∈ program.registered) →
    program.Tells state ((ids.map Value.block).mapM (Pass.synthesizeOne hooks))
      (ids.flatMap (program.exportContexts hooks))
      fun values after => ∃ news : List Nat, values = news.map .block ∧ news.Pairwise (· < ·) ∧
        (∀ new ∈ news, state.program.blocks.size ≤ new) ∧
        List.Forall₂ (program.Describes hooks after)
          (withAsked (program.exportContexts hooks) state.asked ids) news
  | [], _, _ => tells_pure ⟨[], rfl, .nil, nofun, .nil⟩
  | id :: rest, state, hids => by
    obtain ⟨hid, hrest⟩ := forall_mem_cons.1 hids
    rw [map_cons, mapM_cons, flatMap_cons]
    refine (tells_synthesizeOne h hid).bind fun value state₁ hmoves₁ hvalue => ?_
    obtain ⟨new, rfl, hle, hnew⟩ := hvalue
    refine (tells_synthesizeAll h rest state₁ hrest).andLast fun values _ hmoves₂ hvalues => ?_
    obtain ⟨news, rfl, hascending, hlater, hnews⟩ := hvalues
    have hlt : new < state₁.program.blocks.size := by
      obtain ⟨_, _, _, _, -, -, hblock, -⟩ := hnew
      exact (Array.getElem?_eq_some_iff.1 hblock).1
    refine tells_pure ⟨new :: news, rfl, pairwise_cons.2 ⟨fun other hother => ?_, hascending⟩,
      forall_mem_cons.2 ⟨hle, fun other hother => ?_⟩,
      .cons (hnew.grow hmoves₂.grows) (hmoves₁.asked ▸ hnews)⟩
    · exact Nat.lt_of_lt_of_le hlt (hlater other hother)
    · exact Nat.le_trans hmoves₁.grows.size (hlater other hother)

/-! ## The pass -/

/-- What the pass leads to: if it fails, the program has only grown; if not, the typedefs are put at
the end of the body. -/
theorem Orderly.run_synthesize (h : program.Orderly) (hooks : Hooks) (calls : List HookCall) :
    ∃ (grown : Program) (called : List HookCall), program.Grows grown ∧
      ((∃ fault, (Pass.synthesize hooks).run.run ⟨program, calls⟩ =
          (.error fault, ⟨grown, called.reverse ++ calls⟩) ∧
        called.map HookCall.context <+: program.exports.flatMap (program.exportContexts hooks)) ∨
      ∃ news : List Nat, (Pass.synthesize hooks).run.run ⟨program, calls⟩ =
          (.ok (news.map .block),
            ⟨grown.appendBlocks (news.map .block), called.reverse ++ calls⟩) ∧
        called.map HookCall.context = program.exports.flatMap (program.exportContexts hooks) ∧
        news.Pairwise (· < ·) ∧ (∀ new ∈ news, program.blocks.size ≤ new) ∧
        List.Forall₂ (program.Describes hooks grown) (withAsked (program.exportContexts hooks)
          (calls.map HookCall.context) program.exports) news) := by
  have hregistered : ∀ id ∈ program.exports, id ∈ program.registered :=
    fun _ hid => (mem_filter.1 hid).1
  obtain ⟨result, grown, called, hrun, hgrows, herror, hok⟩ :=
    tells_synthesizeAll h program.exports ⟨program, calls⟩ hregistered (.refl program)
  have hquery : (Pass.query Pass.exportBlocks).run.run ⟨program, calls⟩ =
      (.ok (program.exports.map Value.block), ⟨program, calls⟩) := by
    rw [Pass.run_query, show Editable.select program _ = _ from h.query_exports]
    rfl
  refine ⟨grown, called, hgrows, ?_⟩
  rw [Pass.synthesize, Pass.run_bind_ok hquery]
  cases result with
  | error fault =>
    refine .inl ⟨fault, ?_, herror fault rfl⟩
    rw [Pass.run_bind, hrun]
  | ok values =>
    obtain ⟨hcalled, news, rfl, hascending, hnew, hnews⟩ := hok values rfl
    refine .inr ⟨news, ?_, hcalled, hascending, hnew, hnews⟩
    rw [Pass.run_bind_ok hrun]
    exact Pass.run_bind_ok (Pass.run_change _ _)

section
variable (h : state.program.Orderly)
include h

/-- When types of classes are put together, the program grows, and blocks that were added may be put
at the end of its body. -/
theorem Orderly.exists_grown (hooks : Hooks) :
    ∃ grown, state.program.Grows grown ∧
      (((Pass.synthesize hooks).run.run state).2.program = grown ∨
        ∃ ids : List Nat, (∀ id ∈ ids, grown.IsPlaceless id ∧ grown.Unexported id) ∧
          ((Pass.synthesize hooks).run.run state).2.program =
            grown.appendBlocks (ids.map .block)) := by
  obtain ⟨program, calls⟩ := state
  obtain ⟨grown, called, hgrows, ⟨fault, hrun, -⟩ | ⟨news, hrun, -, -, hnew, hnews⟩⟩ :=
    h.run_synthesize hooks calls
  · exact ⟨grown, hgrows, .inl (by rw [hrun])⟩
  · refine ⟨grown, hgrows, .inr ⟨news, fun new hmem => ?_, by rw [hrun]⟩⟩
    obtain ⟨id, -, _, _, block, _, -, -, hblock, -⟩ := exists_mem_of_forall₂ hnews hmem
    obtain ⟨hspan, hexport, -⟩ := hgrows.added hblock (hnew new hmem)
    exact ⟨⟨block, hblock, hspan⟩, block, hblock, hexport⟩

/-- Types of classes may be put together. -/
theorem Orderly.synthesize (hooks : Hooks) :
    ((Pass.synthesize hooks).run.run state).2.program.Orderly := by
  obtain ⟨grown, hgrows, hrun | ⟨ids, hids, hrun⟩⟩ := h.exists_grown hooks
  · rw [hrun]
    exact h.grow hgrows
  · rw [hrun]
    exact (h.grow hgrows).appendBlocks fun id hid => (hids id hid).2

/-- Local blocks may be unregistered. -/
theorem Orderly.removeLocals :
    ((Pass.removeLocals : Pass Program Nat).run.run state).2.program.Orderly := by
  have hkeeps : Pass.Keeps (fun before after : Program => before.Orderly → after.Orderly)
      (fun _ => True) (Pass.removeLocals : Pass Program Nat) fun _ _ => True := by
    refine Pass.Keeps.bind (fun h h' => h' ∘ h) (Pass.keeps_query fun _ => id) fun blocks => ?_
    cases blocks with
    | nil => exact Pass.keeps_pure (fun _ => id) fun _ _ => trivial
    | cons =>
      refine Pass.keeps_perform (fun _ => id) fun _ hedit => ⟨fun h => ?_, trivial⟩
      cases mapError_eq_ok.1 hedit
      exact h.unregister _
  exact (hkeeps state trivial).1 h

/-- Local typedefs may be inlined. -/
theorem Orderly.inlineTypedefs :
    ((Pass.inlineTypedefs : Pass Program Nat).run.run state).2.program.Orderly := by
  obtain ⟨program, calls⟩ := state
  obtain ⟨_, log, _, -, hrun, hlogs⟩ := exists_log_inlineTypedefs steady_orderly h calls
  rw [hrun]
  exact hlogs.all_good h log.program mem_cons_self

end

/-- Programs that passes make of a program that was read are orderly. -/
theorem ReachedFrom.orderly {source : List Char} {first : Program}
    (hread : Program.read source = .ok first) (h : first.ReachedFrom program) :
    program.Orderly := by
  induction h with
  | refl => exact orderly_of_read hread
  | inlineTypedefs _ _ ih => exact ih.inlineTypedefs
  | removeLocals _ _ ih => exact ih.removeLocals
  | synthesize _ hooks _ ih => exact ih.synthesize hooks

/-- What edits keep is kept by every sequence of passes, if a program may grow and blocks may be put
at the end of its body. -/
theorem ReachedFrom.kept {source : List Char} {first : Program} {rel : Program → Program → Prop}
    (hread : Program.read source = .ok first) (h : first.ReachedFrom program)
    (hkept : Editable.Kept rel) (hgrow : ∀ {before after}, before.Grows after → rel before after)
    (happend : ∀ {program} {ids : List Nat}, (∀ id ∈ ids, program.IsPlaceless id) →
      rel program (program.appendBlocks (ids.map .block))) : rel first program := by
  induction h with
  | refl => exact hkept.refl first
  | inlineTypedefs _ _ ih => exact hkept.trans ih (Pass.follows_inlineTypedefs hkept _ trivial).1
  | removeLocals _ _ ih => exact hkept.trans ih (Pass.follows_removeLocals hkept _ trivial).1
  | synthesize _ hooks hreached ih =>
    obtain ⟨grown, hgrows, hrun | ⟨ids, hids, hrun⟩⟩ := (hreached.orderly hread).exists_grown hooks
    · rw [hrun]
      exact hkept.trans ih (hgrow hgrows)
    · rw [hrun]
      exact hkept.trans ih (hkept.trans (hgrow hgrows) (happend fun id hid => (hids id hid).1))

/-- No sequence of passes leaves the frame. -/
theorem ReachedFrom.frame {source : List Char} {first : Program}
    (hread : Program.read source = .ok first) (h : first.ReachedFrom program) :
    first.Frame program :=
  h.kept hread kept_frame Grows.frame frame_appendBlocks

/-- Blocks put at the end of the body are told to whom they belong; all else stays. -/
theorem block?_appendBlocks (ids : List Nat) (id : Nat) :
    (program.appendBlocks (ids.map .block)).block? id = (program.block? id).map fun block =>
      if id ∈ ids then { block with owner := some program.root.id } else block := by
  have hids : (ids.map Value.block).filterMap blockId? = ids := by
    rw [filterMap_map]
    exact filterMap_some
  rw [block?, Program.appendBlocks, hids]
  exact getElem?_foldl_modify _ ids program.blocks id

/-- A typedef stays one when it is put at the end of the body. -/
theorem Describes.appendBlocks {exported : List HookContext × Nat} {new : Nat}
    (h : program.Describes hooks after exported new) (ids : List Nat) :
    program.Describes hooks (after.appendBlocks (ids.map .block)) exported new := by
  obtain ⟨node, className, block, tag, hclass, hname, hblock, htags, htag⟩ := h
  have hmoved : (after.appendBlocks (ids.map .block)).block? new = some
      (if new ∈ ids then { block with owner := some after.root.id } else block) := by
    rw [block?_appendBlocks, hblock, Option.map_some]
  refine ⟨node, className, _, tag, hclass, hname, hmoved, ?_, htag⟩
  split <;> exact htags

/-- In a program that passes made of one that was read, the types of the exported classes are put
together whatever the hooks answer. If that fails, the tree and the registered blocks are as they
were. If not, the body goes on with a new typedef for each registered block with `@export`, in their
order. The hooks were told about the parameters of each class and then about the class, and each
typedef has the type that they gave after what they were asked before. -/
theorem synthesize_appends_typedefs {source : List Char} {first : Program}
    (hread : Program.read source = .ok first) (hreached : first.ReachedFrom program)
    (hooks : Hooks) (calls : List HookCall) :
    ∃ (result : Except PassFault (List Value)) (after : Program) (called : List HookCall),
      (Pass.synthesize hooks).run.run ⟨program, calls⟩ =
        (result, ⟨after, called.reverse ++ calls⟩) ∧
      after.registered = program.registered ∧
      (∀ id block, program.block? id = some block → after.block? id = some block) ∧
      (∀ fault, result = .error fault → after.root = program.root ∧
        called.map HookCall.context <+: program.exports.flatMap (program.exportContexts hooks)) ∧
      ∀ typedefs, result = .ok typedefs →
        called.map HookCall.context = program.exports.flatMap (program.exportContexts hooks) ∧
        ∃ (items : List Value) (news : List Nat), typedefs = news.map .block ∧
          program.root.get .body = .list items ∧
          after.root.get .body = .list (items ++ typedefs) ∧
          news.Nodup ∧ (∀ new ∈ news, program.block? new = none) ∧
          List.Forall₂ (program.Describes hooks after) (withAsked (program.exportContexts hooks)
            (calls.map HookCall.context) program.exports) news := by
  have horderly := hreached.orderly hread
  obtain ⟨grown, called, hgrows, ⟨fault, hrun, hcalled⟩ |
    ⟨news, hrun, hcalled, hascending, hnew, hnews⟩⟩ := horderly.run_synthesize hooks calls
  · exact ⟨_, grown, called, hrun, hgrows.registered, hgrows.blocks,
      fun _ _ => ⟨hgrows.root, hcalled⟩, nofun⟩
  · have hblocks : ∀ id block, program.block? id = some block →
        (grown.appendBlocks (news.map .block)).block? id = some block := by
      intro id block hblock
      have hold : id ∉ news := fun hmem =>
        Nat.not_lt.2 (hnew id hmem) (Array.getElem?_eq_some_iff.1 hblock).1
      rw [block?_appendBlocks, hgrows.blocks id block hblock, Option.map_some, if_neg hold]
    refine ⟨_, _, called, hrun, hgrows.registered, hblocks, nofun, fun typedefs htypedefs => ?_⟩
    cases htypedefs
    obtain ⟨_, items, ids, hbody, -, -⟩ := horderly.body
    have hget : grown.root.get .body = .list (items ++ ids.map .block) := by
      rw [hgrows.root, Node.get, hbody]
      rfl
    refine ⟨hcalled, items ++ ids.map .block, news, rfl, hgrows.root ▸ hget, ?_,
      hascending.imp Nat.ne_of_lt, fun new hmem => Array.getElem?_eq_none (hnew new hmem),
      hnews.imp fun _ _ hdescribes => hdescribes.appendBlocks news⟩
    rw [Program.appendBlocks, hget]
    exact get_set_self (Option.isSome_of_eq_some (Node.get?_of_get_list hget))

/-- A source with two exported classes, of which the first has a method with parameters. -/
def twoExported : List Char :=
  ("function f(B)\x7b/** @export */return class A extends B\x7b" ++
    "/** @param \x7bnumber\x7d a\n@param [b] */m(a,b)\x7b\x7d\x7d\x7d\n" ++
    "function g()\x7b/** @export */return class D\x7b\x7d\x7d").toList

/-- Hooks of which the first keeps all names, and the second has type casts made and answers with
another type once it was asked. -/
def castingHooks : Hooks where
  classHook := some fun _ _ => {}
  paramHook := some fun asked _ =>
    { casts := ["T", "U[]"], answer := .text (if asked.isEmpty then "T" else "U") }

/-- Both classes get a typedef, and the hooks are asked four times. -/
theorem synthesize_appends_twoExported : ∃ program, Program.read twoExported = .ok program ∧
    ∃ (typedefs : List Value) (after : Program) (called : List HookCall),
      (Pass.synthesize castingHooks).run.run ⟨program, []⟩ =
        (.ok typedefs, ⟨after, called.reverse ++ []⟩) ∧
      typedefs.length = 2 ∧ called.length = 4 ∧
      called.map HookCall.context =
        program.exports.flatMap (program.exportContexts castingHooks) ∧
      ∃ news : List Nat, typedefs = news.map .block ∧
        List.Forall₂ (program.Describes castingHooks after)
          (withAsked (program.exportContexts castingHooks) [] program.exports) news := by
  have hok : ((Program.read twoExported).toOption.any fun program =>
      let outcome := (Pass.synthesize castingHooks).run.run ⟨program, []⟩
      outcome.1.toOption.any (·.length == 2) && outcome.2.calls.length == 4) = true := by
    decide +kernel
  obtain ⟨program, hread, houtcome⟩ := exists_eq_ok_of_any hok
  obtain ⟨result, after, called, hrun, -, -, -, hok⟩ :=
    synthesize_appends_typedefs hread .refl castingHooks []
  rw [hrun, Bool.and_eq_true, beq_iff_eq, append_nil, length_reverse] at houtcome
  obtain ⟨typedefs, rfl, hlength⟩ := exists_eq_ok_of_any houtcome.1
  obtain ⟨hcalled, items, news, hnews, -, -, -, -, hdescribed⟩ := hok typedefs rfl
  exact ⟨program, hread, typedefs, after, called, hrun, beq_iff_eq.1 hlength, houtcome.2, hcalled,
    news, hnews, hdescribed⟩

end Program

end DocTypes
