import DocTypes.Proofs.Program.References
import DocTypes.Proofs.TypeExpr.Reachable

/-!
# The local typedefs of a program

`Program.localTypedefs` lists the tags that give a type a name that is only good in the file, and
`Program.definitions` says what the names of some tags stand for. In a program that was read, the
query for local typedefs finds them in their order (`ReadFrom.query_localTypedefs`).
-/

namespace DocTypes

open List

/-- A list of items with different names has at most one with a name. -/
theorem find?_eq_some_iff {α : Type} {label : α → String} {items : List α} {item : α}
    {text : String} (h : (items.map label).Nodup) :
    items.find? (fun other => label other == text) = some item ↔
      item ∈ items ∧ label item = text := by
  refine ⟨fun hfind => ?_, ?_⟩
  · have hlabel := find?_some hfind
    exact ⟨mem_of_find?_eq_some hfind, beq_iff_eq.1 hlabel⟩
  rintro ⟨hmem, rfl⟩
  induction items with
  | nil => cases hmem
  | cons first rest ih =>
    rw [map_cons, nodup_cons] at h
    rcases mem_cons.1 hmem with rfl | hmem
    · exact find?_cons_of_pos (beq_self_eq_true (label item))
    · rw [find?_cons_of_neg, ih h.2 hmem]
      intro heq
      exact h.1 (beq_iff_eq.1 heq ▸ mem_map_of_mem hmem)

namespace Program

/-- The typedefs in registered blocks with `@local`, in the order of the document. -/
def typedefTags (program : Program) : List Tag :=
  (program.registeredBlocks.filter fun block => block.hasTag "local").flatMap fun block =>
    block.tags.filter fun tag => tag.title == "typedef"

/-- The tag has a name and a type. -/
def isDeclaration (tag : Tag) : Bool :=
  tag.name != "" && tag.typeKey.isSome

/-- The local typedefs: those that have a name and a type. -/
def localTypedefs (program : Program) : List Tag :=
  program.typedefTags.filter isDeclaration

/-- What the names of tags stand for: the types of the tags. -/
def definitions (program : Program) (tags : List Tag) : Definitions := fun label => do
  let tag ← tags.find? fun tag => tag.name == label
  program.types.tree? (← tag.typeKey)

variable {program program' : Program} {tag : Tag} {tags : List Tag} {source : List Char}
  {pieces : List Piece} {lexed : Lexed}

/-- What a name stands for does not depend on the order of the tags. -/
theorem definitions_perm {order : List Tag} (h : order.Perm tags)
    (hnames : (tags.map Tag.name).Nodup) : program.definitions order =
    program.definitions tags := by
  have hfind : ∀ label, order.find? (fun tag => tag.name == label) =
      tags.find? fun tag => tag.name == label := by
    intro label
    ext tag
    rw [find?_eq_some_iff ((h.map _).nodup_iff.2 hnames),
      find?_eq_some_iff hnames, h.mem_iff]
  funext label
  rw [definitions, definitions, hfind]

/-- The block of a typedef. -/
theorem mem_typedefTags : tag ∈ program.typedefTags ↔
    ∃ id ∈ program.registered, ∃ block, program.block? id = some block ∧ tag ∈ block.tags ∧
      block.hasTag "local" = true ∧ tag.title = "typedef" := by
  simp only [typedefTags, registeredBlocks, mem_flatMap, mem_filter, mem_filterMap,
    beq_iff_eq]
  constructor
  · rintro ⟨block, ⟨⟨id, hid, hblock⟩, hlocal⟩, htag, htitle⟩
    exact ⟨id, hid, block, hblock, htag, hlocal, htitle⟩
  · rintro ⟨id, hid, block, hblock, htag, hlocal, htitle⟩
    exact ⟨block, ⟨⟨id, hid, hblock⟩, hlocal⟩, htag, htitle⟩

/-- A typedef stands in a registered block. -/
theorem hasTag_of_mem_typedefTags (h : tag ∈ program.typedefTags) : program.HasTag tag := by
  obtain ⟨id, hid, block, hblock, htag, -⟩ := mem_typedefTags.1 h
  exact ⟨id, hid, block, hblock, htag⟩

/-- The typedefs in a block with `@local`. -/
def typedefsIn (program : Program) : Value → List Value
  | .block id => (program.block? id).toList.flatMap fun block =>
      (block.tags.filter fun tag => tag.title == "typedef" && block.hasTag "local").map .tag
  | _ => []

/-- The typedefs in registered blocks. -/
theorem flatMap_typedefsIn : (program.registered.map .block).flatMap program.typedefsIn =
    program.typedefTags.map .tag := by
  rw [typedefTags, registeredBlocks]
  induction program.registered with
  | nil => rfl
  | cons id rest ih =>
    rw [map_cons, flatMap_cons, ih, typedefsIn]
    cases hblock : program.block? id with
    | none => rw [filterMap_cons_none hblock]; rfl
    | some block =>
      rw [filterMap_cons_some hblock, Option.toList_some, flatMap_singleton]
      cases hlocal : block.hasTag "local" with
      | true =>
        simp only [Bool.and_true]
        rw [filter_cons_of_pos (by exact hlocal), flatMap_cons, map_append]
      | false =>
        simp only [Bool.and_false, filter_false, map_nil, nil_append]
        rw [filter_cons_of_neg (by simp [hlocal])]

/-- On a walk from a statement or a block the local typedefs that are met are those in the block. -/
theorem filter_walk_typedefs {ids : Nat → Prop} (h : program.Viewable ids) {levels : Nat}
    {child : Value} {above : List Value} {met : List (Value × List Value)}
    (hchild : (∃ tokens node, child = .node node ∧ Placed tokens node) ∨
      ∃ id, child = .block id ∧ ids id)
    (hwalk : program.view.walkFrom (levels + 2) child above = .ok met) :
    (met.filter fun entry => program.isLocalTypedef entry.1 entry.2).map Prod.fst =
      program.typedefsIn child := by
  have hother : ∀ {value path}, isTagWith (.equals "typedef") value = false →
      program.isLocalTypedef value path = false := by
    intro value path hvalue
    cases path with
    | nil => rfl
    | cons => rw [isLocalTypedef, hvalue]; rfl
  rw [filter_walk h (fun _ _ => hother rfl) (fun _ _ => hother rfl) hchild hwalk]
  rcases hchild with ⟨tokens, node, rfl, -⟩ | ⟨id, rfl, hid⟩
  · rw [filter_singleton, hother rfl]
    rfl
  · obtain ⟨block, hblock⟩ := h.blocks id hid
    have hlocal : program.hasTagWith (.equals "local") id = block.hasTag "local" := by
      rw [hasTagWith, hblock]
      rfl
    rw [filter_singleton, hother rfl, tagsIn, typedefsIn, hblock, Option.toList_some,
      flatMap_singleton, flatMap_singleton, filter_map, ← hlocal]
    rfl

/-- A query for local typedefs finds those in registered blocks, in their order, if there are none
in what else stands below the root. -/
theorem query_localTypedefs {ids : Nat → Prop} (h : program.Viewable ids) {others : List Value}
    (hchildren : program.view.children (.node program.root) =
      .ok (others ++ program.registered.map .block))
    (hothers : others.flatMap program.typedefsIn = [])
    (hdistinct : (program.typedefTags.map Tag.id).Nodup) :
    program.query Pass.localTypedefs = .ok (program.typedefTags.map .tag) := by
  obtain ⟨children, hsame, hkinds⟩ := h.children
  cases hsame.symm.trans hchildren
  refine query_eq_ok h Selector.read_localTypedefs
    (fun value path hseen hleads => selects_localTypedef h hseen hleads) rfl hchildren
    (fun child hchild levels walk hwalk => filter_walk_typedefs h (hkinds child hchild) hwalk) ?_ ?_
  · rw [flatMap_append, hothers, flatMap_typedefsIn, nil_append]
  · rw [pairwise_map]
    refine (pairwise_map.1 hdistinct).imp fun {first second} hne => ?_
    exact beq_eq_false_iff_ne.2 (Ne.symm hne)

section
variable (h : program.ReadFrom source pieces lexed)
include h

/-- The registered blocks of a program that was read are all its blocks. -/
theorem ReadFrom.registeredBlocks : program.registeredBlocks = program.blocks.toList := by
  have hall : ∀ blocks : List Block,
      (List.range blocks.length).filterMap (fun id => blocks[id]?) = blocks := by
    intro blocks
    induction blocks with
    | nil => rfl
    | cons block rest ih =>
      rw [length_cons, range_succ_eq_map, filterMap_cons_some getElem?_cons_zero,
        filterMap_map]
      exact congrArg (block :: ·) ih
  have hblock : program.block? = fun id => program.blocks.toList[id]? := by
    funext id
    rw [block?, Array.getElem?_toList]
  rw [Program.registeredBlocks, h.registered, hblock, ← Array.length_toList, hall]

/-- In a program that was read, typedefs are told apart by their numbers. -/
theorem ReadFrom.nodup_typedefTags : (program.typedefTags.map Tag.id).Nodup := by
  have hsub : program.typedefTags.Sublist (program.blocks.toList.flatMap Block.tags) := by
    rw [← h.registeredBlocks]
    exact (List.Sublist.flatMap_right _ fun _ _ => filter_sublist).trans
      (filter_sublist.flatMap _)
  exact pairwise_map.2 (h.blocks.tags.distinct.sublist hsub)

/-- The query for local typedefs finds them in their order. -/
theorem ReadFrom.query_localTypedefs :
    program.query Pass.localTypedefs = .ok (program.typedefTags.map .tag) := by
  refine Program.query_localTypedefs h.legible.viewable (children_root h.legible) ?_
    h.nodup_typedefTags
  refine flatMap_eq_nil_iff.2 fun value hvalue => ?_
  rcases h.rooted.arranged.null_or_node (mem_filter.1 hvalue).1 with rfl | ⟨_, rfl⟩ <;> rfl

end

end Program

end DocTypes
