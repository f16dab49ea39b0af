import DocTypes.Proofs.Pass.Locals

/-!
# Which blocks inlining modifies

A block counts as modified if it lost a tag, or if a slot was overwritten that can be reached from
the type of one of its tags. Slots are shared and types are rewritten one typedef after the other;
still, inlining local typedefs modifies the blocks that lost one, and those with a tag left whose
type, as it was read, holds the name of one (`isModified_inlineTypedefs`). The other blocks are
printed as they were written.

One step touches the types that hold the name of its tag (`Replaces.isTouched_iff`): slots that hold
a name have no parts, so paths through the arena lead where they led before, or through a slot that
was overwritten. For the run the names in a type are followed along (`Marks`).
-/

namespace DocTypes

open List

namespace Arena

variable {arena arena' : Arena} {key source other : Nat} {keys : List Nat}

/-- Whether a type is touched can be asked of the slots that are reachable. -/
theorem touched_iff (h : arena.Closed) (hkey : key < arena.slots.size) :
    arena.touched key = true ↔ arena.IsTouched key := by
  obtain ⟨keys, hkeys, hmem⟩ := exists_reachable? h hkey
  obtain ⟨isTouched, htouched, hiff⟩ := touched?_eq hkeys hmem
  rw [touched, htouched]
  exact hiff

/-- Where names are overwritten, all stays below a slot that stood there. -/
theorem Overwrites.below (h : arena.Overwrites keys source arena')
    (hnames : ∀ slot ∈ keys, ∃ label, arena.IsName label slot) (hbelow : arena.Below key other) :
    arena'.Below key other := by
  induction hbelow with
  | refl => exact .refl
  | @tail middle other _ hpart ih =>
    obtain ⟨node, hnode, hmem⟩ := hpart
    refine ih.tail ⟨node, ?_, hmem⟩
    rw [h.elsewhere middle, hnode]
    intro hmiddle
    obtain ⟨label, name, hname, hshape⟩ := hnames middle hmiddle
    rw [hnode] at hname
    cases hname
    rw [hshape] at hmem
    cases hmem

/-- What stands below a slot stood there before, or a slot below it was overwritten. -/
theorem Overwrites.below_or (h : arena.Overwrites keys source arena')
    (hbelow : arena'.Below key other) :
    arena.Below key other ∨ ∃ slot ∈ keys, arena.Below key slot := by
  induction hbelow with
  | refl => exact .inl .refl
  | @tail middle other _ hpart ih =>
    refine ih.elim (fun hmiddle => ?_) .inr
    by_cases hkeys : middle ∈ keys
    · exact .inr ⟨middle, hkeys, hmiddle⟩
    · obtain ⟨node, hnode, hmem⟩ := hpart
      rw [h.elsewhere middle hkeys] at hnode
      exact .inl (hmiddle.tail ⟨node, hnode, hmem⟩)

end Arena

namespace Program

variable {program program' program'' : Program} {tag other : Tag} {tags : List Tag} {key top : Nat}
  {inner type : TypeExpr}

section
variable {keys : List Nat} {types : Arena} (hstep : program.Replaces tag key keys types program')
include hstep

/-- A step touches the types that hold the name of its tag. -/
theorem Replaces.isTouched_iff (hother : program.HasTag other) (htop : other.typeKey = some top)
    (htype : program.types.tree? top = some type) :
    types.IsTouched top ↔ program.types.IsTouched top ∨ tag.name ∈ type.names := by
  have hnames : ∀ slot ∈ keys, ∃ label, program.types.IsName label slot :=
    fun slot hslot => ⟨tag.name, ((hstep.uses slot).1 hslot).2⟩
  have hused : ∀ slot ∈ keys, program.types.Below top slot → tag.name ∈ type.names :=
    fun slot hslot hbelow =>
      (Arena.mem_names_tree htype).2 ⟨slot, hbelow, ((hstep.uses slot).1 hslot).2⟩
  constructor
  · rintro ⟨slot, hslot, hbelow⟩
    rcases hstep.overwrites.below_or hbelow with hbelow | ⟨slot', hslot', hbelow⟩
    · rcases (hstep.replaced slot).1 hslot with hslot | hslot
      · exact .inr (hused slot hslot hbelow)
      · exact .inl ⟨slot, hslot, hbelow⟩
    · exact .inr (hused slot' hslot' hbelow)
  · rintro (⟨slot, hslot, hbelow⟩ | hname)
    · exact ⟨slot, (hstep.replaced slot).2 (.inr hslot), hstep.overwrites.below hnames hbelow⟩
    · obtain ⟨slot, hbelow, hlabel⟩ := (Arena.mem_names_tree htype).1 hname
      have hslot := (hstep.uses slot).2 ⟨⟨other, top, hother, htop, hbelow⟩, hlabel⟩
      exact ⟨slot, (hstep.replaced slot).2 (.inl hslot), hstep.overwrites.below hnames hbelow⟩

/-- A step notes in a block that its tag was taken out. -/
theorem Replaces.removedTags (h : program.Inlinable) (htag : program.HasTag tag)
    {id : Nat} {block block' : Block} (hblock : program.block? id = some block)
    (hblock' : program'.block? id = some block') :
    block'.removedTags = 0 ↔ block.removedTags = 0 ∧ tag ∉ block.tags := by
  obtain ⟨owner, -, first, hfirst, hmem⟩ := htag
  have howner := h.owners owner first hfirst tag hmem
  obtain ⟨_, hvalue, hremoved⟩ := bind_eq_ok.1 hstep.removed
  cases hvalue
  rw [howner] at hremoved
  cases hremoved
  change (program.blocks.modify owner _)[id]? = _ at hblock'
  rw [Array.getElem?_modify, show program.blocks[id]? = some block from hblock] at hblock'
  split at hblock'
  case isTrue hid =>
    subst hid
    rw [hblock] at hfirst
    cases hfirst
    cases hblock'
    have hany : block.tags.any (fun other => other.id == tag.id) = true :=
      any_eq_true.2 ⟨tag, hmem, beq_self_eq_true tag.id⟩
    rw [Block.withoutTag, if_pos hany]
    exact iff_of_false (Nat.succ_ne_zero _) fun hnot => hnot.2 hmem
  case isFalse hid =>
    cases hblock'
    refine (and_iff_left fun hmem' => hid ?_).symm
    have howner' := h.owners id block hblock tag hmem'
    rw [howner] at howner'
    exact Option.some.inj howner'

end

/-- Tags were inlined: they are gone from their blocks, which is noted there, and the types that
held one of their names are touched. -/
structure Marks (program : Program) (tags : List Tag) (program' : Program) : Prop where
  blocks : ∀ id block, program.block? id = some block → ∃ block', program'.block? id = some block' ∧
    (∀ other, other ∈ block'.tags ↔ other ∈ block.tags ∧ other ∉ tags) ∧
    (block'.removedTags = 0 ↔ block.removedTags = 0 ∧ ∀ tag ∈ tags, tag ∉ block.tags)
  types : ∀ other, program.HasTag other → other ∉ tags → ∀ top, other.typeKey = some top →
    ∀ type, program.types.tree? top = some type →
      (program'.types.IsTouched top ↔
        program.types.IsTouched top ∨ ∃ tag ∈ tags, tag.name ∈ type.names)
  closed : program'.types.Closed
  size : program'.types.slots.size = program.types.slots.size

/-- No tag was inlined. -/
theorem Marks.refl (h : program.Inlinable) : program.Marks [] program where
  blocks id block hblock := ⟨block, hblock, by simp, by simp⟩
  types other _ _ top _ type _ := by simp
  closed := h.legible.types
  size := rfl

/-- One step and the run after it. -/
theorem Marks.cons {keys : List Nat} {types : Arena}
    (hstep : program.Replaces tag key keys types program') (h : program.Inlinable)
    (htag : program.HasTag tag) (hinner : program.types.tree? key = some inner)
    (hlater : program'.Marks tags program'') : program.Marks (tag :: tags) program'' := by
  obtain ⟨hmiddle, hdrops⟩ := hstep.drops h htag hinner
  have hinlines := hstep.inlines h htag hinner
  refine ⟨fun id block hblock => ?_, fun other hother hnot top htop type htype => ?_,
    hlater.closed, ?_⟩
  · obtain ⟨block', hblock', htags⟩ := hdrops.exists_block' hblock
    obtain ⟨block'', hblock'', htags', hremoved'⟩ := hlater.blocks id block' hblock'
    refine ⟨block'', hblock'', fun other => ?_, ?_⟩
    · rw [htags', htags, mem_cons, not_or, and_assoc]
    · rw [hremoved', hstep.removedTags h htag hblock hblock', forall_mem_cons, and_assoc]
      refine and_congr_right fun _ => and_congr_right fun hnot => forall₂_congr fun other _ => ?_
      rw [htags]
      refine not_congr (and_iff_left_of_imp ?_)
      rintro hmem rfl
      exact hnot hmem
  · rw [mem_cons, not_or] at hnot
    have hleft := (hinlines.hasTag other).2 ⟨hother, hnot.1⟩
    have htree := hinlines.tree other hother top htop type htype
    rw [hlater.types other hleft hnot.2 top htop _ htree, hdrops.types,
      hstep.isTouched_iff hother htop htype, exists_mem_cons_iff, or_assoc]
    refine or_congr_right ?_
    by_cases hname : tag.name ∈ type.names
    · exact ⟨fun _ => .inl hname, fun _ => .inl hname⟩
    · rw [TypeExpr.subst_only_of_notMem hname]
  · rw [hlater.size, hdrops.types]
    exact hstep.overwrites.size

/-- A run over tags that succeeds has inlined them. -/
theorem marks_of_run {calls : List HookCall} {state : PassState Program} :
    ∀ {tags : List Tag} {program : Program} {counts : List Nat}, program.Inlinable →
      program.Declared tags →
      ((typedefs tags).mapM Pass.inlineTypedef : Pass Program (List Nat)).run.run ⟨program, calls⟩ =
        (.ok counts, state) → program.Marks tags state.program := by
  intro tags
  induction tags with
  | nil =>
    intro program counts h hd hrun
    cases hrun
    exact .refl h
  | cons tag rest ih =>
    intro program counts h hd hrun
    obtain ⟨key, inner, hkey, hinner, -⟩ := hd.exists_head h
    have htypedefs : typedefs (tag :: rest) = typedefAt tag key :: typedefs rest :=
      filterMap_cons_some (by rw [hkey]; rfl)
    have htag := hd.hasTag tag (.head _)
    have hlabel := hd.plain tag (.head _)
    rw [htypedefs, mapM_cons] at hrun
    obtain ⟨count, middle, hfirst, hrun⟩ := Pass.run_bind_eq_ok.1 hrun
    obtain ⟨later, last, hrest, hrun⟩ := Pass.run_bind_eq_ok.1 hrun
    cases hrun
    by_cases hself : tag.name ∈ inner.names
    · obtain ⟨failed, hfailed⟩ := run_inlineTypedef_recursive h htag hkey hlabel hinner hself
      rw [hfailed] at hfirst
      cases hfirst
    · obtain ⟨_, keys, types, program', hdone, hstep⟩ :=
        run_inlineTypedef h htag hkey hlabel hinner hself
      rw [hdone] at hfirst
      cases hfirst
      have hinlines := hstep.inlines h htag hinner
      exact .cons hstep h htag hinner (ih hinlines.inlinable (hinlines.declared hd) hrest)

section
variable {source : List Char} {pieces : List Piece} {lexed : Lexed}
  {block block' : Block} {id : Nat}

/-- Which blocks of a program that was read are modified after tags were inlined. -/
theorem Marks.isModified_iff (h : program.Marks tags program')
    (hread : program.ReadFrom source pieces lexed) (hblock : program.block? id = some block)
    (hblock' : program'.block? id = some block') :
    block'.isModified program'.types = true ↔ (∃ tag ∈ tags, tag ∈ block.tags ∧ tag ∉ block'.tags) ∨
      ∃ tag ∈ block'.tags, ∃ key type, tag.typeKey = some key ∧
        program.types.tree? key = some type ∧ ∃ label ∈ type.names, label ∈ tags.map Tag.name := by
  obtain ⟨_, hother, htags, hremoved⟩ := h.blocks id block hblock
  rw [hblock'] at hother
  cases hother
  have hregistered : id ∈ program.registered := by
    rw [hread.registered, mem_range]
    exact (Array.getElem?_eq_some_iff.1 hblock).1
  have hmem : block ∈ program.blocks.toList :=
    mem_of_getElem? (Array.getElem?_toList.trans hblock)
  rw [Block.isModified, Bool.or_eq_true, bne_iff_ne, any_eq_true]
  refine or_congr ?_ (exists_congr fun tag => and_congr_right fun htag => ?_)
  · rw [Ne, hremoved, not_and]
    constructor
    · intro hlost
      by_contra hnone
      refine hlost (hread.blocks.whole block hmem) fun tag htag hold => hnone ⟨tag, htag, hold, ?_⟩
      exact fun hleft => ((htags tag).1 hleft).2 htag
    · rintro ⟨tag, htag, hold, -⟩ _ hnone
      exact hnone tag htag hold
  · obtain ⟨hold, hnot⟩ := (htags tag).1 htag
    have hhas : program.HasTag tag := ⟨id, hregistered, block, hblock, hold⟩
    have huntouched : ∀ key, ¬ program.types.IsTouched key := by
      rintro key ⟨slot, hslot, -⟩
      rw [hread.blocks.tags.types.kept.replaced] at hslot
      cases hslot
    rw [Tag.isTouched]
    cases hkey : tag.typeKey with
    | none =>
      refine iff_of_false Bool.false_ne_true ?_
      rintro ⟨_, _, hnone, -⟩
      cases hnone
    | some key =>
      have hlt := hhas.lt_size hread.inlinable hkey
      obtain ⟨type, htype⟩ := hhas.exists_tree hread.inlinable hkey
      rw [Option.map_some, Option.getD_some, Arena.touched_iff h.closed (h.size.symm ▸ hlt),
        h.types tag hhas hnot key hkey type htype, or_iff_right (huntouched key)]
      constructor
      · rintro ⟨other, hother, hname⟩
        exact ⟨key, type, rfl, htype, other.name, hname, mem_map_of_mem hother⟩
      · rintro ⟨_, _, hsame, htype', label, hlabel, hname⟩
        cases hsame
        rw [htype] at htype'
        cases htype'
        obtain ⟨other, hother, rfl⟩ := mem_map.1 hname
        exact ⟨other, hother, hlabel⟩

end

/-- After local typedefs were inlined, a block of the source is modified exactly if it lost one of
them, or has a tag left whose type held the name of one of them when it was read. In the text of the
program, every registered block that is not modified stands as it was written. -/
theorem isModified_inlineTypedefs {source : List Char} {calls : List HookCall} {count : Nat}
    {state : PassState Program} (hread : Program.read source = .ok program)
    (hplain : ∀ tag ∈ program.localTypedefs, '"' ∉ tag.name.toList)
    (hrun : (Pass.inlineTypedefs : Pass Program Nat).run.run ⟨program, calls⟩ =
      (.ok count, state)) :
    (∀ id block, program.block? id = some block → ∃ block', state.program.block? id = some block' ∧
      (block'.isModified state.program.types = true ↔
        (∃ tag ∈ program.localTypedefs, tag ∈ block.tags ∧ tag ∉ block'.tags) ∨
        ∃ tag ∈ block'.tags, ∃ key type, tag.typeKey = some key ∧
          program.types.tree? key = some type ∧
          ∃ label ∈ type.names, label ∈ program.localTypedefs.map Tag.name)) ∧
    ∃ patches texts, state.program.PrintsAs source patches texts ∧
      ∀ id ∈ state.program.registered, ∀ block', state.program.block? id = some block' →
        block'.isModified state.program.types = false → ∃ patch ∈ patches, patch.block = id ∧
          block'.span = some patch.span ∧ patch.text = String.ofList (patch.span.text source) := by
  obtain ⟨pieces, lexed, hfrom⟩ := readFrom_of_read hread
  have hreached := ReachedFrom.inlineTypedefs ⟨program, calls⟩ .refl
  rw [hrun] at hreached
  have hframe := hreached.frame hread
  obtain ⟨hnames, counts, hall⟩ := ReachedFrom.exists_run hread .refl hrun
  have hmarks := marks_of_run hfrom.inlinable (declared_localTypedefs hplain hnames) hall
  refine ⟨fun id block hblock => ?_, ?_⟩
  · obtain ⟨block', hblock', -⟩ := hmarks.blocks id block hblock
    exact ⟨block', hblock', hmarks.isModified_iff hfrom hblock hblock'⟩
  · obtain ⟨blocks, patches, texts, -, -, -, hprints⟩ := hframe.printsAs hfrom
    refine ⟨patches, texts, hprints, fun id hid block' hblock' hsame => ?_⟩
    have hsource : id ∈ state.program.sourceBlocks := by
      rw [hframe.sourceBlocks, hfrom.sourceBlocks, ← hfrom.registered]
      exact (hreached.trims hread).registered.subset hid
    obtain ⟨patch, hpatch, hnumber, block, hblock, hspan, htext⟩ :=
      exists_mem_of_forall₂_left hprints.sourceBlocks hsource
    rw [hblock] at hblock'
    cases hblock'
    rw [contains_iff_mem.2 hid,
      Block.print_unmodified (hframe.source.trans hfrom.text) hspan hsame] at htext
    exact ⟨patch, hpatch, hnumber, hspan, (Except.ok.inj htext).symm⟩

/-- A source with two local typedefs, one in the other's type, a reference to one of them, and a
type that has nothing to do with them. -/
def referredAndApart : List Char :=
  ("/** @local\n * @typedef \x7bB[]\x7d A */\n/** @typedef \x7bnumber\x7d B\n * @local */\n" ++
    "/** @type \x7b?A\x7d */\nvar x;\n/** @type \x7bC\x7d */\nvar y;\n").toList

/-- Three blocks are modified, the third because of the name in its type, and the fourth is printed
as it was written. -/
theorem isModified_referredAndApart : ∃ program count state,
    Program.read referredAndApart = .ok program ∧
    (∀ tag ∈ program.localTypedefs, '"' ∉ tag.name.toList) ∧
    (Pass.inlineTypedefs : Pass Program Nat).run.run ⟨program, []⟩ = (.ok count, state) ∧
    (state.program.blocks.toList.map fun block => block.isModified state.program.types) =
      [true, true, true, false] ∧
    (∃ block, state.program.block? 2 = some block ∧ ∃ tag ∈ block.tags, ∃ key type,
      tag.typeKey = some key ∧ program.types.tree? key = some type ∧
      ∃ label ∈ type.names, label ∈ program.localTypedefs.map Tag.name) ∧
    ∃ patches texts, state.program.PrintsAs referredAndApart patches texts ∧
      ∃ patch ∈ patches, patch.block = 3 ∧
        patch.text = String.ofList (patch.span.text referredAndApart) := by
  obtain ⟨program, count, state, hread, hrun, hall⟩ := exists_inlined_of_any referredAndApart
    (fun program _ program' => program.localTypedefs.map Tag.name == ["A", "B"] &&
      (program'.registered == [0, 1, 2, 3] &&
      (((program.block? 2).any fun block => program.localTypedefs.all (!block.tags.contains ·)) &&
      ((program'.blocks.toList.map fun block => block.isModified program'.types) ==
        [true, true, true, false]))))
    (by decide +kernel)
  simp only [Bool.and_eq_true, beq_iff_eq, Option.any_eq_true, all_eq_true,
    Bool.not_eq_true', ← Bool.not_eq_true, contains_iff_mem] at hall
  obtain ⟨hnames, hregistered, ⟨block, hblock, hapart⟩, hflags⟩ := hall
  have hlabels : ∀ label ∈ ["A", "B"], '"' ∉ label.toList := by decide
  have hplain : ∀ tag ∈ program.localTypedefs, '"' ∉ tag.name.toList :=
    fun tag htag => hlabels tag.name (hnames ▸ mem_map_of_mem htag)
  have hflag : ∀ id block, state.program.block? id = some block →
      [true, true, true, false][id]? = some (block.isModified state.program.types) := by
    intro id block hblock
    rw [← hflags, getElem?_map, Array.getElem?_toList]
    exact congrArg _ hblock
  obtain ⟨hmodified, patches, texts, hprints, hverbatim⟩ :=
    isModified_inlineTypedefs hread hplain hrun
  refine ⟨program, count, state, hread, hplain, hrun, hflags, ?_, patches, texts, hprints, ?_⟩
  · obtain ⟨block', hblock', hiff⟩ := hmodified 2 block hblock
    refine ⟨block', hblock',
      (hiff.1 (Option.some.inj (hflag 2 block' hblock')).symm).resolve_left ?_⟩
    rintro ⟨tag, htag, hold, -⟩
    exact hapart tag htag hold
  · have hid : 3 ∈ state.program.registered := hregistered ▸ by decide
    have hlt : 3 < state.program.blocks.size := by
      rw [← Array.length_toList, ← length_map, hflags]
      decide
    have hlast := Array.getElem?_eq_getElem hlt
    obtain ⟨patch, hpatch, hnumber, -, htext⟩ :=
      hverbatim 3 hid _ hlast (Option.some.inj (hflag 3 _ hlast)).symm
    exact ⟨patch, hpatch, hnumber, htext⟩

end Program

end DocTypes
