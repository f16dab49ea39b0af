import DocTypes.Program.Editable
import DocTypes.Proofs.Pass.Keeps
import DocTypes.Proofs.Program.Read

/-!
# What no pass changes

Passes change types, take tags out of blocks, unregister blocks and make new ones. They never change
where a block of the source stands and how it is laid out, and never touch the tree, other than by
putting blocks that have no place behind its statements. This is `Program.Frame`. Edits of local
blocks keep it (`kept_frame`), and so does putting new blocks behind the statements
(`frame_appendBlocks`).
-/

namespace DocTypes

/-- Stores of blocks of which the second has the blocks of the first, laid out as they were. -/
def KeepsLayout (blocks blocks' : Array Block) : Prop :=
  ∀ (id : Nat) (block : Block), blocks[id]? = some block →
    ∃ block', blocks'[id]? = some block' ∧ block.SameLayout block'

namespace KeepsLayout

variable {blocks blocks' blocks'' : Array Block}

theorem refl (blocks : Array Block) : KeepsLayout blocks blocks :=
  fun _ block h => ⟨block, h, .refl block⟩

theorem trans (h : KeepsLayout blocks blocks') (h' : KeepsLayout blocks' blocks'') :
    KeepsLayout blocks blocks'' := by
  intro id block hblock
  obtain ⟨block', hblock', hs⟩ := h id block hblock
  obtain ⟨block'', hblock'', hs'⟩ := h' id block' hblock'
  exact ⟨block'', hblock'', hs.trans hs'⟩

/-- A block is changed, but not its layout. -/
theorem modify {place : Nat} {f : Block → Block}
    (hf : ∀ block : Block, block.SameLayout (f block)) :
    KeepsLayout blocks (blocks.modify place f) := by
  intro id block hblock
  rw [Array.getElem?_modify, hblock]
  split
  · exact ⟨f block, rfl, hf block⟩
  · exact ⟨block, rfl, .refl block⟩

/-- Blocks are changed one after the other, but not their layout. -/
theorem foldl_modify {f : Block → Block} (hf : ∀ block : Block, block.SameLayout (f block)) :
    ∀ (ids : List Nat) (blocks : Array Block),
      KeepsLayout blocks (ids.foldl (fun blocks id => blocks.modify id f) blocks)
  | [], blocks => .refl blocks
  | id :: rest, blocks => (modify hf).trans (foldl_modify hf rest (blocks.modify id f))

end KeepsLayout

namespace Program

/-- The block has no place in the source. -/
def IsPlaceless (program : Program) (id : Nat) : Prop :=
  ∃ block, program.block? id = some block ∧ block.span = none

/-- What the second program has of the first: its source, the layout of its blocks, and its tree,
with blocks that have no place put behind the statements. -/
structure Frame (program program' : Program) : Prop where
  source : program'.source = program.source
  sourceBlocks : program'.sourceBlocks = program.sourceBlocks
  blocks : KeepsLayout program.blocks program'.blocks
  kind : program'.root.kind = program.root.kind
  span : program'.root.span = program.root.span
  body : ∀ items, program.root.get .body = .list items →
    ∃ ids : List Nat, program'.root.get .body = .list (items ++ ids.map .block) ∧
      ∀ id ∈ ids, program'.IsPlaceless id

variable {program program' program'' : Program}

/-- A block without a place never gets one. -/
theorem IsPlaceless.of_keepsLayout (h : KeepsLayout program.blocks program'.blocks) {id : Nat}
    (hid : program.IsPlaceless id) : program'.IsPlaceless id := by
  obtain ⟨block, hblock, hspan⟩ := hid
  obtain ⟨block', hblock', hs⟩ := h id block hblock
  exact ⟨block', hblock', hs.span.trans hspan⟩

/-- An edit that leaves the tree alone. -/
theorem Frame.of_root (hroot : program'.root = program.root)
    (hsource : program'.source = program.source)
    (hsourceBlocks : program'.sourceBlocks = program.sourceBlocks)
    (hblocks : KeepsLayout program.blocks program'.blocks) : program.Frame program' where
  source := hsource
  sourceBlocks := hsourceBlocks
  blocks := hblocks
  kind := by rw [hroot]
  span := by rw [hroot]
  body := fun items hitems =>
    ⟨[], by rw [hroot, hitems, List.map_nil, List.append_nil], by nofun⟩

/-- Frames are put together. -/
theorem Frame.trans (h : program.Frame program') (h' : program'.Frame program'') :
    program.Frame program'' where
  source := h'.source.trans h.source
  sourceBlocks := h'.sourceBlocks.trans h.sourceBlocks
  blocks := h.blocks.trans h'.blocks
  kind := h'.kind.trans h.kind
  span := h'.span.trans h.span
  body := by
    intro items hitems
    obtain ⟨ids, hbody, hids⟩ := h.body items hitems
    obtain ⟨ids', hbody', hids'⟩ := h'.body _ hbody
    refine ⟨ids ++ ids', ?_, List.forall_mem_append.2 ⟨fun id hid => ?_, hids'⟩⟩
    · rw [hbody', List.map_append, List.append_assoc]
    · exact (hids id hid).of_keepsLayout h'.blocks

/-- Taking out a tag leaves the layout. -/
theorem frame_removeTag {value : Value} (h : program.removeTag value = .ok program') :
    program.Frame program' := by
  obtain ⟨tag, _, h⟩ := bind_eq_ok.1 h
  split at h
  · cases h
  · cases h
    refine .of_root rfl rfl rfl (.modify fun block => ?_)
    rw [Block.withoutTag]
    split <;> exact ⟨rfl, rfl, rfl, rfl, rfl, rfl, rfl, rfl⟩

/-- Values are put behind the statements. -/
theorem body_appendBlocks {items values : List Value} (h : program.root.get .body = .list items) :
    (program.appendBlocks values).root.get .body = .list (items ++ values) := by
  have hsome : (program.root.get? .body).isSome := by
    cases hget : program.root.get? .body with
    | some value => rfl
    | none =>
      rw [Node.get, hget] at h
      cases h
  rw [appendBlocks, get_set_self hsome, h]
  rfl

/-- New blocks are put behind the statements. -/
theorem frame_appendBlocks {ids : List Nat} (hids : ∀ id ∈ ids, program.IsPlaceless id) :
    program.Frame (program.appendBlocks (ids.map .block)) := by
  have howner : ∀ block : Block, block.SameLayout { block with owner := some program.root.id } :=
    fun _ => ⟨rfl, rfl, rfl, rfl, rfl, rfl, rfl, rfl⟩
  have hblocks : KeepsLayout program.blocks (program.appendBlocks (ids.map .block)).blocks :=
    .foldl_modify howner _ _
  refine ⟨rfl, rfl, hblocks, (kind_span_set ..).1, (kind_span_set ..).2, fun items hitems => ?_⟩
  exact ⟨ids, body_appendBlocks hitems, fun id hid => (hids id hid).of_keepsLayout hblocks⟩

/-- The edits of local blocks keep the frame. -/
theorem kept_frame : Editable.Kept Frame where
  refl program := .of_root rfl rfl rfl (.refl _)
  trans := .trans
  replaceType := by
    intro key source program program' h
    obtain ⟨types, _, h⟩ := bind_eq_ok.1 h
    cases h
    exact .of_root rfl rfl rfl (.refl _)
  removeTag := frame_removeTag
  unregister := by
    intro blocks program program' count h
    cases h
    exact .of_root rfl rfl rfl (.refl _)

/-- The programs that passes make of a program, one after the other. A pass that fails leaves a
program too. -/
inductive ReachedFrom (first : Program) : Program → Prop
  | refl : ReachedFrom first first
  | inlineTypedefs (state : PassState Program) : ReachedFrom first state.program →
      ReachedFrom first (Pass.inlineTypedefs.run.run state).2.program
  | removeLocals (state : PassState Program) : ReachedFrom first state.program →
      ReachedFrom first (Pass.removeLocals.run.run state).2.program
  | synthesize (state : PassState Program) (hooks : Hooks) :
      ReachedFrom first state.program →
      ReachedFrom first ((Pass.synthesize hooks).run.run state).2.program

end Program

end DocTypes
