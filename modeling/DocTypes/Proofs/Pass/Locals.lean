import DocTypes.Proofs.Pass.Typedefs
import DocTypes.Proofs.Program.Print

/-!
# What passes find, and what they leave

Passes take tags out of the blocks of the source and unregister blocks, and the blocks that they
make have no `@local` (`Trims`, kept by every edit). So whatever passes did to a program that was
read, the selectors of passes select what they are meant to, in the order of the document and each
thing once, and removing local blocks does nothing else (`queries_of_reachedFrom`). A pass that has
been run finds nothing more to do (`second_run_of_reachedFrom`).
-/

namespace DocTypes

open List

/-- What is found of items one by one. -/
theorem filterMap_of_forall₂ {α β : Type} {f : α → Option β} {items : List α} {results : List β}
    (h : List.Forall₂ (fun item result => f item = some result) items results) :
    items.filterMap f = results := by
  induction h with
  | nil => rfl
  | cons hitem _ ih => rw [filterMap_cons_some hitem, ih]

/-- The block has tags, and all of them are `@local`. -/
def Block.isLocalOnly (block : Block) : Bool :=
  !block.tags.isEmpty && block.tags.all fun tag => tag.title == "local"

namespace Program

/-- The registered blocks with nothing but `@local`. -/
def localOnly (program : Program) : List Nat :=
  program.registered.filter fun id => (program.block? id).any Block.isLocalOnly

/-- The program with these blocks no longer registered, and nothing else changed. -/
def withoutLocalOnly (program : Program) : Program :=
  { program with
    registered := program.registered.filter fun id => !(program.block? id).any Block.isLocalOnly }

/-- The second program has the blocks of the first, maybe with fewer tags and no longer registered,
and what it has besides is without `@local`. -/
structure Trims (program program' : Program) : Prop where
  registered : program'.registered.Sublist program.registered
  blocks : ∀ id block, program.block? id = some block →
    ∃ block', program'.block? id = some block' ∧ block'.tags.Sublist block.tags
  added : ∀ id block', program'.block? id = some block' → program.block? id = none →
    block'.hasTag "local" = false

variable {first program program' program'' : Program}

/-! ## What edits leave of blocks -/

/-- Blocks are changed, but get no new tags. -/
theorem Trims.of_map (hregistered : program'.registered.Sublist program.registered)
    (hblocks : ∀ id, ∃ f : Block → Block, program'.block? id = (program.block? id).map f ∧
      ∀ block, (f block).tags.Sublist block.tags) : program.Trims program' where
  registered := hregistered
  blocks id block hblock := by
    obtain ⟨f, hf, hsub⟩ := hblocks id
    exact ⟨f block, by rw [hf, hblock, Option.map_some], hsub block⟩
  added id block' hblock' hnone := by
    obtain ⟨f, hf, -⟩ := hblocks id
    rw [hf, hnone] at hblock'
    cases hblock'

/-- Blocks are left alone. -/
theorem Trims.of_eq (hregistered : program'.registered.Sublist program.registered)
    (hblocks : program'.blocks = program.blocks) : program.Trims program' :=
  .of_map hregistered fun id =>
    ⟨fun block => block, by rw [Option.map_id', block?, hblocks, block?],
    fun _ => .refl _⟩

theorem Trims.refl (program : Program) : program.Trims program :=
  .of_eq (.refl _) rfl

theorem Trims.trans (h : program.Trims program') (h' : program'.Trims program'') :
    program.Trims program'' where
  registered := h'.registered.trans h.registered
  blocks id block hblock := by
    obtain ⟨block', hblock', hsub⟩ := h.blocks id block hblock
    obtain ⟨block'', hblock'', hsub'⟩ := h'.blocks id block' hblock'
    exact ⟨block'', hblock'', hsub'.trans hsub⟩
  added id block'' hblock'' hnone := by
    cases hblock' : program'.block? id with
    | none => exact h'.added id block'' hblock'' hblock'
    | some block' =>
      obtain ⟨_, hother, hsub⟩ := h'.blocks id block' hblock'
      rw [hblock''] at hother
      cases hother
      exact Block.hasTag_of_subset hsub.subset (h.added id block' hblock' hnone)

theorem Grows.trims (h : program.Grows program') : program.Trims program' where
  registered := h.registered ▸ .refl _
  blocks id block hblock := ⟨block, h.blocks id block hblock, .refl _⟩
  added _ _ hblock hnone := (h.added hblock (Array.getElem?_eq_none_iff.1 hnone)).2.2

/-- Blocks are put at the end of the body. -/
theorem trims_appendBlocks (blocks : List Value) : program.Trims (program.appendBlocks blocks) := by
  refine .of_map (.refl _) fun id => ⟨_, getElem?_foldl_modify _ _ _ id, fun block => ?_⟩
  split <;> exact .refl _

/-- Edits of local blocks leave blocks as they are, or without some of their tags. -/
theorem kept_trims : Editable.Kept Trims where
  refl := .refl
  trans := .trans
  replaceType := by
    intro key source program program' h
    obtain ⟨types, -, h⟩ := bind_eq_ok.1 h
    cases h
    exact .of_eq (.refl _) rfl
  removeTag := by
    intro value program program' h
    obtain ⟨tag, -, h⟩ := bind_eq_ok.1 h
    split at h
    · cases h
    · next owner _ =>
      cases h
      refine .of_map (.refl _) fun id => ⟨fun block => if owner = id then
        block.withoutTag tag else block, ?_, fun block => ?_⟩
      · change (program.blocks.modify owner _)[id]? = _
        rw [Array.getElem?_modify]
        split
        · rfl
        · exact (Option.map_id').symm
      · split
        · rw [Block.tags_withoutTag]
          exact eraseP_sublist
        · exact .refl _
  unregister := by
    intro blocks program program' count h
    cases h
    exact .of_eq filter_sublist rfl

/-- Passes leave of blocks what edits leave. -/
theorem ReachedFrom.trims {source : List Char} (hread : Program.read source = .ok first)
    (h : first.ReachedFrom program) : first.Trims program :=
  h.kept hread kept_trims Grows.trims fun _ => trims_appendBlocks _

section
variable {source : List Char} {pieces : List Piece} {lexed : Lexed}

/-- The tags of registered blocks are tags that were read, in their order. -/
theorem Trims.sublist_tags (hread : first.ReadFrom source pieces lexed) (h : first.Trims program) :
    (program.registeredBlocks.flatMap Block.tags).Sublist
      (first.blocks.toList.flatMap Block.tags) := by
  have hthere := hread.legible.registered
  have hsub := h.registered
  rw [← hread.registeredBlocks, registeredBlocks, registeredBlocks]
  generalize program.registered = ids', first.registered = ids at hthere hsub
  induction hsub with
  | slnil => exact .slnil
  | cons id _ ih =>
    obtain ⟨⟨block, hblock⟩, hrest⟩ := forall_mem_cons.1 hthere
    rw [filterMap_cons_some hblock, flatMap_cons]
    exact (ih hrest).trans (sublist_append_right _ _)
  | cons_cons id _ ih =>
    obtain ⟨⟨block, hblock⟩, hrest⟩ := forall_mem_cons.1 hthere
    obtain ⟨block', hblock', htags⟩ := h.blocks id block hblock
    rw [filterMap_cons_some hblock, filterMap_cons_some hblock', flatMap_cons,
      flatMap_cons]
    exact htags.append (ih hrest)

/-- Typedefs are told apart by their numbers. -/
theorem Trims.nodup_typedefTags (hread : first.ReadFrom source pieces lexed)
    (h : first.Trims program) : (program.typedefTags.map Tag.id).Nodup := by
  have hsub : program.typedefTags.Sublist (program.registeredBlocks.flatMap Block.tags) :=
    (List.Sublist.flatMap_right _ fun _ _ => filter_sublist).trans
      (filter_sublist.flatMap _)
  exact pairwise_map.2
    (hread.blocks.tags.distinct.sublist (hsub.trans (h.sublist_tags hread)))

/-- A block among the statements has no `@local`: it was not read. -/
theorem ReachedFrom.exists_unlocal (hread : Program.read source = .ok first)
    (h : first.ReachedFrom program) {id : Nat} (hid : .block id ∈ program.root.childValues) :
    ∃ block, program.block? id = some block ∧ block.hasTag "local" = false := by
  obtain ⟨pieces, lexed, hfrom⟩ := readFrom_of_read hread
  obtain ⟨ids, -, hids, hplaceless⟩ := (h.frame hread).childValues hfrom
  have hmem : id ∈ program.bodyBlocks := mem_filterMap.2 ⟨_, hid, rfl⟩
  obtain ⟨block, hblock, hspan⟩ := hplaceless id (hids ▸ hmem)
  refine ⟨block, hblock, (h.trims hread).added id block hblock ?_⟩
  cases hfirst : first.block? id with
  | none => rfl
  | some before =>
    obtain ⟨_, hother, hs⟩ := (h.frame hread).blocks id before hfirst
    rw [show program.blocks[id]? = some block from hblock] at hother
    cases hother
    obtain ⟨span, hplace⟩ := hfrom.laidOut.exists_span before
      (mem_of_getElem? (Array.getElem?_toList.trans hfirst))
    rw [hs.span, hplace] at hspan
    cases hspan

end

/-! ## What the queries of passes find -/

/-- Has the block nothing but `@local`? -/
theorem hasTagWith_localOnly (id : Nat) :
    (program.hasTagWith (.equals "local") id && !program.hasTagWith (.differs "local") id) =
      (program.block? id).any Block.isLocalOnly := by
  rw [hasTagWith, hasTagWith]
  cases program.block? id with
  | none => rfl
  | some block =>
    have hothers : (!block.tags.any fun tag => tag.title != "local") =
        block.tags.all fun tag => tag.title == "local" := by
      simp [not_any_eq_all_not, bne]
    change (block.tags.any (fun tag => tag.title == "local") &&
      !block.tags.any fun tag => tag.title != "local") = block.isLocalOnly
    rw [hothers, Block.isLocalOnly]
    cases block.tags with
    | nil => rfl
    | cons tag rest => cases htitle : tag.title == "local" <;> simp [htitle]

/-- Where no block has nothing but `@local`, none is unregistered. -/
theorem withoutLocalOnly_of_nil (hnone : program.localOnly = []) :
    program.withoutLocalOnly = program := by
  have hall : (program.registered.filter fun id => !(program.block? id).any Block.isLocalOnly) =
      program.registered := by
    refine filter_eq_self.2 fun id hid => ?_
    rw [Bool.not_eq_true', Bool.eq_false_iff]
    exact filter_eq_nil_iff.1 hnone id hid
  rw [withoutLocalOnly, hall]

/-- The blocks with nothing but `@local` are unregistered. -/
theorem unregister_localOnly : program.unregister (program.localOnly.map .block) =
    (program.localOnly.length, program.withoutLocalOnly) := by
  have hdoomed : (program.localOnly.map Value.block).filterMap blockId? = program.localOnly := by
    rw [filterMap_map]
    exact filterMap_some
  have hkept : (program.registered.filter fun id => !program.localOnly.contains id) =
      program.withoutLocalOnly.registered := by
    refine filter_congr fun id hid => congrArg (!·) ?_
    rw [Bool.eq_iff_iff, contains_iff_mem, localOnly, mem_filter]
    exact and_iff_right hid
  have hcount : program.registered.length =
      program.localOnly.length + program.withoutLocalOnly.registered.length :=
    length_eq_length_filter_add _
  rw [unregister, hdoomed, hkept, hcount, Nat.add_sub_cancel]
  rfl

/-- The first block stands before the second one in the source. -/
def Precedes (block block' : Block) : Prop :=
  ∃ span span', block.span = some span ∧ block'.span = some span' ∧ span.stop ≤ span'.start

section
variable {source : List Char} (hread : Program.read source = .ok first)
  (h : first.ReachedFrom program)
include hread h

/-- The query for blocks with nothing but `@local` finds the registered ones, in their order. -/
theorem ReachedFrom.query_localOnly :
    program.query Pass.localOnly = .ok (program.localOnly.map .block) := by
  have horderly := h.orderly hread
  have hquery := horderly.query_blocks Selector.read_localOnly
    (fun id above hid => selectsAll_havingOnly horderly.viewable _ _ hid above none)
    fun id hid => by
      obtain ⟨block, hblock, hlocal⟩ := h.exists_unlocal hread hid
      have hnone : program.hasTagWith (.equals "local") id = false := by
        rw [hasTagWith, hblock]
        exact hlocal
      rw [hnone, Bool.false_and]
  rw [hquery, localOnly, filter_congr fun id _ => hasTagWith_localOnly id]

/-- The query for local typedefs finds them in their order. -/
theorem ReachedFrom.query_localTypedefs :
    program.query Pass.localTypedefs = .ok (program.typedefTags.map .tag) := by
  obtain ⟨pieces, lexed, hfirst⟩ := readFrom_of_read hread
  have horderly := h.orderly hread
  obtain ⟨statements, ids, hchildren, hstatements, hvalues⟩ := horderly.exists_children
  refine Program.query_localTypedefs horderly.viewable hchildren ?_
    ((h.trims hread).nodup_typedefTags hfirst)
  refine flatMap_eq_nil_iff.2 (forall_mem_append.2 ⟨fun value hvalue => ?_,
    forall_mem_map.2 fun id hid => ?_⟩)
  · obtain ⟨_, _, rfl, -⟩ := hstatements value hvalue
    rfl
  · obtain ⟨block, hblock, hlocal⟩ :=
      h.exists_unlocal hread (hvalues _ (mem_append_right _ (mem_map_of_mem hid)))
    rw [typedefsIn, hblock, Option.toList_some, flatMap_singleton, hlocal]
    simp only [Bool.and_false, filter_false, map_nil]

/-- Removing local blocks unregisters those with nothing but `@local`, and counts them. -/
theorem ReachedFrom.run_removeLocals (calls : List HookCall) :
    (Pass.removeLocals : Pass Program Nat).run.run ⟨program, calls⟩ =
      (.ok program.localOnly.length, ⟨program.withoutLocalOnly, calls⟩) := by
  have hquery : (Pass.query Pass.localOnly : Pass Program (List Value)).run.run ⟨program, calls⟩ =
      (.ok (program.localOnly.map .block), ⟨program, calls⟩) := by
    rw [Pass.run_query, show Editable.select program _ = _ from h.query_localOnly hread]
    rfl
  have hedit : program.unregister (program.localOnly.map .block) = _ := unregister_localOnly
  rw [Pass.removeLocals, Pass.run_bind_ok hquery]
  cases hnone : program.localOnly with
  | nil =>
    rw [withoutLocalOnly_of_nil hnone]
    rfl
  | cons id rest =>
    rw [hnone] at hedit
    have hdone : (Editable.unregister ((id :: rest).map Value.block) program).mapError
        PassFault.access = .ok ((id :: rest).length, program.withoutLocalOnly) :=
      congrArg Except.ok hedit
    refine (Pass.run_perform _ _).trans ?_
    dsimp only
    rw [hdone]

/-- Registered blocks stand in the order of the source. -/
theorem ReachedFrom.pairwise_precedes : program.registeredBlocks.Pairwise Precedes := by
  obtain ⟨pieces, lexed, hfirst⟩ := readFrom_of_read hread
  obtain ⟨blocks, patches, texts, hblocks, -, hplaces, hprints⟩ := (h.frame hread).printsAs hfirst
  have hsub : program.registeredBlocks.Sublist blocks := by
    rw [← filterMap_of_forall₂ hblocks, (h.frame hread).sourceBlocks, hfirst.sourceBlocks,
      ← hfirst.registered]
    exact (h.trims hread).registered.filterMap _
  refine List.Pairwise.sublist hsub ?_
  have hordered := hprints.apart.ordered
  clear hsub hprints hblocks
  induction hplaces with
  | nil => exact .nil
  | @cons block patch blocks patches hspan hrest ih =>
    obtain ⟨hlater, hordered⟩ := pairwise_cons.1 hordered
    refine pairwise_cons.2 ⟨fun other hother => ?_, ih hordered⟩
    obtain ⟨patch', hpatch', hspan'⟩ := exists_mem_of_forall₂_left hrest hother
    exact ⟨_, _, hspan, hspan', hlater patch' hpatch'⟩

/-- Whatever passes made of a program that was read, their selectors select what they are meant to:
the typedefs in registered blocks with `@local`, the registered blocks with nothing but `@local`,
and those with `@export`. These are in the order of the document and each is there once; the blocks
among the statements have neither of the two tags. So removing local blocks unregisters the ones
with nothing but `@local`, answers how many there are, and does nothing else. -/
theorem queries_of_reachedFrom (calls : List HookCall) :
    program.query Pass.localTypedefs = .ok (program.typedefTags.map .tag) ∧
    program.query Pass.localOnly = .ok (program.localOnly.map .block) ∧
    program.query Pass.exportBlocks = .ok (program.exports.map .block) ∧
    (program.typedefTags.map Tag.id).Nodup ∧ program.registered.Nodup ∧
    program.registeredBlocks.Pairwise Precedes ∧
    (∀ id ∈ program.bodyBlocks, ∃ block, program.block? id = some block ∧
      block.hasTag "local" = false ∧ block.hasTag "export" = false) ∧
    (Pass.removeLocals : Pass Program Nat).run.run ⟨program, calls⟩ =
      (.ok program.localOnly.length, ⟨program.withoutLocalOnly, calls⟩) := by
  obtain ⟨pieces, lexed, hfirst⟩ := readFrom_of_read hread
  have horderly := h.orderly hread
  refine ⟨h.query_localTypedefs hread, h.query_localOnly hread, horderly.query_exports,
    (h.trims hread).nodup_typedefTags hfirst, horderly.distinct, h.pairwise_precedes hread, ?_,
    h.run_removeLocals hread calls⟩
  intro id hid
  obtain ⟨value, hvalue, hblockId⟩ := mem_filterMap.1 hid
  cases value with
  | block other =>
    cases hblockId
    obtain ⟨block, hblock, hlocal⟩ := h.exists_unlocal hread hvalue
    obtain ⟨_, hother, hexport⟩ := horderly.unexported hvalue
    rw [hblock] at hother
    cases hother
    exact ⟨block, hblock, hlocal, hexport⟩
  | _ => cases hblockId

end

/-- A source with a local typedef, a block that has nothing but `@local`, and an exported class. -/
def localsAndExport : List Char :=
  ("/** @local\n * @typedef \x7bnumber\x7d N */\n/** @local */\nlet x;\n" ++
    "/** @local\n * @typedef M */\nfunction f() \x7b\n  /** @export */\n" ++
    "  return class A \x7b\x7d;\n\x7d\n").toList

/-- Types of classes are put together and typedefs inlined. Then one typedef is left, that has no
type, two blocks have nothing but `@local`, and the class is exported by another. -/
theorem queries_of_localsAndExport : ∃ first program, Program.read localsAndExport = .ok first ∧
    first.ReachedFrom program ∧ program.bodyBlocks = [4] ∧
    program.typedefTags.map Tag.name = ["M"] ∧
    program.query Pass.localTypedefs = .ok (program.typedefTags.map .tag) ∧
    program.query Pass.localOnly = .ok [.block 0, .block 1] ∧
    program.query Pass.exportBlocks = .ok [.block 3] ∧
    (Pass.removeLocals : Pass Program Nat).run.run ⟨program, []⟩ =
      (.ok 2, ⟨{ program with registered := [2, 3] }, []⟩) := by
  have hok : ((Program.read localsAndExport).toOption.any fun first =>
      let built := ((Pass.synthesize {}).run.run ⟨first, []⟩).2
      let program := ((Pass.inlineTypedefs : Pass Program Nat).run.run built).2.program
      program.bodyBlocks == [4] && program.typedefTags.map Tag.name == ["M"] &&
        program.localOnly == [0, 1] && program.exports == [3] &&
        program.withoutLocalOnly.registered == [2, 3]) = true := by
    decide +kernel
  obtain ⟨first, hread, hfacts⟩ := exists_eq_ok_of_any hok
  have hreached : first.ReachedFrom _ :=
    .inlineTypedefs ((Pass.synthesize {}).run.run ⟨first, []⟩).2 (.synthesize _ {} .refl)
  simp only [Bool.and_eq_true, beq_iff_eq] at hfacts
  generalize ((Pass.inlineTypedefs : Pass Program Nat).run.run _).2.program = program
    at hfacts hreached
  obtain ⟨⟨⟨⟨hbody, htypedefs⟩, hlocal⟩, hexports⟩, hregistered⟩ := hfacts
  obtain ⟨hquery, hquery', hquery'', -, -, -, -, hrun⟩ := queries_of_reachedFrom hread hreached []
  rw [hlocal] at hquery' hrun
  rw [hexports] at hquery''
  refine ⟨first, program, hread, hreached, hbody, htypedefs, hquery, hquery', hquery'',
    hrun.trans ?_⟩
  rw [← hregistered]
  rfl

/-- Whatever passes made of a program that was read, the selector of the references to a name
without quotes is read as one, and selects the types that are this name and that are met on a walk
from the root, each once. -/
theorem query_names_of_reachedFrom {source : List Char} {label : String}
    (hread : Program.read source = .ok first) (h : first.ReachedFrom program)
    (hlabel : '"' ∉ label.toList) :
    Selector.read (Pass.references label).toList =
      .ok [.allOf [.kind "TypeName", .attributeIs ["value"] (.equals label)]] ∧
    ∃ keys : List Nat, program.query (Pass.references label) =
        .ok (keys.map fun key => .type ⟨key, .name label⟩) ∧ keys.Nodup ∧
      ∀ key, key ∈ keys ↔
        ∃ path, program.view.Leads (.node program.root) path (.type ⟨key, .name label⟩) :=
  have horderly := h.orderly hread
  ⟨Selector.read_references hlabel, query_named horderly.viewable horderly.grounded hlabel⟩

/-- A type that is inlined refers to a name, and so does the type that it is inlined into. -/
def namedTwice : List Char :=
  "/** @local\n@typedef \x7bA[]\x7d B */\n/** @type \x7bB | A\x7d */ x;".toList

theorem query_names_of_namedTwice : ∃ first program, Program.read namedTwice = .ok first ∧
    first.ReachedFrom program ∧ ∃ keys : List Nat, keys.length = 2 ∧
      program.query (Pass.references "A") =
        .ok (keys.map fun key => .type ⟨key, .name "A"⟩) ∧ keys.Nodup ∧
      ∀ key, key ∈ keys ↔
        ∃ path, program.view.Leads (.node program.root) path (.type ⟨key, .name "A"⟩) := by
  obtain ⟨first, count, state, hread, hrun, hfound⟩ := exists_inlined_of_any namedTwice
    (fun _ _ program => (program.query (Pass.references "A")).toOption.any (·.length == 2))
    (by decide +kernel)
  have hreached := ReachedFrom.inlineTypedefs ⟨first, []⟩ .refl
  rw [hrun] at hreached
  obtain ⟨-, keys, hquery, hkeys⟩ :=
    query_names_of_reachedFrom hread hreached (show '"' ∉ "A".toList by decide)
  rw [hquery] at hfound
  exact ⟨first, state.program, hread, hreached, keys,
    (length_map _).symm.trans (beq_iff_eq.1 hfound), hquery, hkeys⟩

/-! ## Second runs -/

end Program

namespace Pass

variable {σ α κ : Type} [Editable σ α κ] [BEq κ] {rel : σ → σ → Prop}
  {state state' : PassState σ}

/-- Where a typedef is inlined, its tag is taken out last. -/
theorem exists_removeTag_of_run (hk : Editable.Kept rel) {typedef : Typedef α κ} {count : Nat}
    (h : (inlineTypedef typedef : Pass σ Nat).run.run state = (.ok count, state')) :
    ∃ program, rel state.program program ∧
      Editable.removeTag typedef.tag program = .ok state'.program := by
  unfold inlineTypedef at h
  split at h
  · obtain ⟨_, _, h, -⟩ := run_bind_eq_ok.1 h
    cases h
  · obtain ⟨references, queried, hquery, h⟩ := run_bind_eq_ok.1 h
    obtain ⟨own, asked, hask, h⟩ := run_bind_eq_ok.1 h
    obtain ⟨_, replaced, hreplace, h⟩ := run_bind_eq_ok.1 h
    obtain ⟨_, removed, hremove, h⟩ := run_bind_eq_ok.1 h
    cases h
    rw [run_query] at hquery
    rw [run_ask] at hask
    cases (Prod.mk.inj hquery).2
    cases (Prod.mk.inj hask).2
    have hrel := (follows_replaceAll hk typedef own references state trivial).1
    rw [hreplace] at hrel
    refine ⟨replaced.program, hrel, ?_⟩
    rw [run_change] at hremove
    cases hedit : Editable.removeTag typedef.tag replaced.program with
    | error fault =>
      rw [hedit] at hremove
      cases hremove
    | ok program =>
      rw [hedit] at hremove
      cases hremove
      rfl

/-- Where typedefs are inlined one after the other, the tag of each is taken out. -/
theorem exists_removeTag_of_mapM (hk : Editable.Kept rel) {typedefs : List (Typedef α κ)}
    {counts : List Nat} (h : (typedefs.mapM (inlineTypedef (σ := σ))).run.run state =
      (.ok counts, state')) : rel state.program state'.program ∧
      ∀ typedef ∈ typedefs, ∃ program program', rel state.program program ∧
        Editable.removeTag typedef.tag program = .ok program' ∧ rel program' state'.program := by
  induction typedefs generalizing state counts with
  | nil =>
    rw [mapM_nil] at h
    cases h
    exact ⟨hk.refl _, nofun⟩
  | cons typedef rest ih =>
    rw [mapM_cons] at h
    obtain ⟨count, middle, hfirst, h⟩ := run_bind_eq_ok.1 h
    obtain ⟨later, last, hrest, h⟩ := run_bind_eq_ok.1 h
    cases h
    obtain ⟨program, hrel, hremove⟩ := exists_removeTag_of_run hk hfirst
    obtain ⟨hlater, hothers⟩ := ih hrest
    have hstep := hk.trans hrel (hk.removeTag hremove)
    refine ⟨hk.trans hstep hlater, forall_mem_cons.2
      ⟨⟨program, _, hrel, hremove, hlater⟩, fun other hother => ?_⟩⟩
    obtain ⟨before, after, hbefore, hedit, hafter⟩ := hothers other hother
    exact ⟨before, after, hk.trans hstep hbefore, hedit, hafter⟩

end Pass

namespace Program

variable {first program program' : Program} {source : List Char}

/-- A tag that was taken out of a block is not in it any more. -/
theorem notMem_of_removeTag {tag : Tag} {owner : Nat} {block' : Block}
    (howner : tag.owner = some owner)
    (hdistinct : ∀ block, program.block? owner = some block → (block.tags.map Tag.id).Nodup)
    (h : program.removeTag (.tag tag) = .ok program')
    (hblock' : program'.block? owner = some block') : tag ∉ block'.tags := by
  obtain ⟨_, htag, h⟩ := bind_eq_ok.1 h
  cases htag
  rw [howner] at h
  cases h
  change (program.blocks.modify owner _)[owner]? = _ at hblock'
  rw [Array.getElem?_modify, if_pos rfl] at hblock'
  obtain ⟨block, hblock, rfl⟩ := Option.map_eq_some_iff.1 hblock'
  rw [Block.tags_withoutTag]
  intro hmem
  have hold := eraseP_sublist.subset hmem
  exact ((mem_eraseP_id (hdistinct block hblock) hold).1 hmem).2 rfl

/-- A block that is left of one that was there. -/
theorem Trims.exists_block (h : program.Trims program') {id : Nat} {block block' : Block}
    (hblock : program.block? id = some block) (hblock' : program'.block? id = some block') :
    block'.tags.Sublist block.tags := by
  obtain ⟨_, hother, hsub⟩ := h.blocks id block hblock
  rw [hblock'] at hother
  cases hother
  exact hsub

/-- A typedef that is left was there before. -/
theorem Trims.mem_localTypedefs (h : program.Trims program')
    (hthere : ∀ id ∈ program.registered, ∃ block, program.block? id = some block) {tag : Tag}
    (htag : tag ∈ program'.localTypedefs) : tag ∈ program.localTypedefs := by
  obtain ⟨htypedef, hdeclared⟩ := mem_filter.1 htag
  obtain ⟨id, hid, block', hblock', hmem, hlocal, htitle⟩ := mem_typedefTags.1 htypedef
  have hid := h.registered.subset hid
  obtain ⟨block, hblock⟩ := hthere id hid
  have hsub := h.exists_block hblock hblock'
  obtain ⟨other, hother, hname⟩ := any_eq_true.1 hlocal
  refine mem_filter.2 ⟨mem_typedefTags.2 ⟨id, hid, block, hblock, hsub.subset hmem, ?_, htitle⟩,
    hdeclared⟩
  exact any_eq_true.2 ⟨other, hsub.subset hother, hname⟩

/-- Inlining that succeeds has found local typedefs of different names, and inlined one after the
other. -/
theorem ReachedFrom.exists_run (hread : Program.read source = .ok first)
    (h : first.ReachedFrom program) {calls : List HookCall} {count : Nat}
    {state : PassState Program}
    (hrun : (Pass.inlineTypedefs : Pass Program Nat).run.run ⟨program, calls⟩ =
      (.ok count, state)) :
    (program.localTypedefs.map Tag.name).Nodup ∧ ∃ counts,
      ((typedefs program.localTypedefs).mapM Pass.inlineTypedef : Pass Program (List Nat)).run.run
        ⟨program, calls⟩ = (.ok counts, state) := by
  obtain ⟨found, middle, hfind, hrun⟩ := Pass.run_bind_eq_ok.1 hrun
  obtain ⟨counts, last, hall, hrun⟩ := Pass.run_bind_eq_ok.1 hrun
  cases hrun
  obtain ⟨hok, hambiguous⟩ := run_findTypedefs (h.query_localTypedefs hread) calls
  by_cases hnames : (program.localTypedefs.map Tag.name).Nodup
  · rw [hok hnames] at hfind
    cases hfind
    exact ⟨hnames, counts, hall⟩
  · obtain ⟨_, _, _, herror⟩ := hambiguous hnames
    rw [herror] at hfind
    cases hfind

/-- Inlining that succeeds leaves no local typedef. -/
theorem localTypedefs_of_run (hread : Program.read source = .ok first)
    (h : first.ReachedFrom program) {calls : List HookCall} {count : Nat}
    {state : PassState Program}
    (hrun : (Pass.inlineTypedefs : Pass Program Nat).run.run ⟨program, calls⟩ =
      (.ok count, state)) :
    state.program.localTypedefs = [] := by
  obtain ⟨pieces, lexed, hfirst⟩ := readFrom_of_read hread
  obtain ⟨-, counts, hall⟩ := h.exists_run hread hrun
  obtain ⟨htrims, hremoved⟩ := Pass.exists_removeTag_of_mapM kept_trims hall
  refine eq_nil_iff_forall_not_mem.2 fun tag htag => ?_
  have hthere := (h.orderly hread).registered
  have hlocal := htrims.mem_localTypedefs hthere htag
  have hdeclared := (mem_filter.1 hlocal).2
  rw [isDeclaration, Bool.and_eq_true_iff] at hdeclared
  obtain ⟨key, hkey⟩ := Option.isSome_iff_exists.1 hdeclared.2
  have hmem : typedefAt tag key ∈ typedefs program.localTypedefs :=
    mem_filterMap.2 ⟨tag, hlocal, by rw [hkey]; rfl⟩
  obtain ⟨before, after, hbefore, hremove, hafter⟩ := hremoved _ hmem
  -- where the tag stands is known from when it was read, and all blocks on the way have less tags
  obtain ⟨id, hid, block', hblock', hleft, -, -⟩ :=
    mem_typedefTags.1 (mem_filter.1 htag).1
  obtain ⟨read, hblock⟩ := hfirst.legible.registered id
    (((h.trims hread).trans htrims).registered.subset hid)
  have hsub := ((h.trims hread).trans htrims).exists_block hblock hblock'
  have howner := hfirst.inlinable.owners id read hblock tag (hsub.subset hleft)
  obtain ⟨middle, hmiddle, -⟩ :=
    ((h.trims hread).trans (hbefore.trans (kept_trims.removeTag hremove))).blocks id read hblock
  refine notMem_of_removeTag howner (fun block hbefore' => ?_) hremove hmiddle
    ((hafter.exists_block hmiddle hblock').subset hleft)
  exact (hfirst.inlinable.distinct id read hblock).sublist
    ((((h.trims hread).trans hbefore).exists_block hblock hbefore').map _)

/-- Whatever passes made of a program that was read: where inlining succeeds, no local typedef is
found afterwards, and inlining again answers zero and leaves everything as it is; and after local
blocks were removed, no registered block has nothing but `@local`, and removing again answers zero
and leaves everything as it is. -/
theorem second_run_of_reachedFrom (hread : Program.read source = .ok first)
    (h : first.ReachedFrom program) (calls : List HookCall) :
    (∀ count state, (Pass.inlineTypedefs : Pass Program Nat).run.run ⟨program, calls⟩ =
        (.ok count, state) →
      (Pass.findTypedefs : Pass Program _).run.run state = (.ok [], state) ∧
      (Pass.inlineTypedefs : Pass Program Nat).run.run state = (.ok 0, state)) ∧
    ∀ result state, (Pass.removeLocals : Pass Program Nat).run.run ⟨program, calls⟩ =
        (result, state) →
      (∀ id ∈ state.program.registered, ∀ block, state.program.block? id = some block →
        block.isLocalOnly = false) ∧
      (Pass.removeLocals : Pass Program Nat).run.run state = (.ok 0, state) := by
  refine ⟨fun count state hrun => ?_, fun result state hrun => ?_⟩
  · have hreached : first.ReachedFrom state.program := by
      have hnext := ReachedFrom.inlineTypedefs ⟨program, calls⟩ h
      rwa [hrun] at hnext
    have hnone := localTypedefs_of_run hread h hrun
    obtain ⟨hok, -⟩ := run_findTypedefs (hreached.query_localTypedefs hread) state.calls
    have hfind : (Pass.findTypedefs : Pass Program _).run.run state = (.ok [], state) := by
      rw [show state.program.typedefTags.filter isDeclaration = [] from hnone] at hok
      exact hok .nil
    refine ⟨hfind, ?_⟩
    rw [Pass.inlineTypedefs, Pass.run_bind_ok hfind]
    rfl
  · have hreached : first.ReachedFrom state.program := by
      have hnext := ReachedFrom.removeLocals ⟨program, calls⟩ h
      rwa [hrun] at hnext
    rw [h.run_removeLocals hread] at hrun
    cases hrun
    have hleft : ∀ id ∈ program.withoutLocalOnly.registered, ∀ block,
        program.withoutLocalOnly.block? id = some block → block.isLocalOnly = false := by
      intro id hid block hblock
      have hkept := (mem_filter.1 hid).2
      rw [show program.block? id = some block from hblock, Option.any_some] at hkept
      simpa using hkept
    have hnone : program.withoutLocalOnly.localOnly = [] := by
      refine filter_eq_nil_iff.2 fun id hid => ?_
      cases hblock : program.withoutLocalOnly.block? id with
      | none => exact Bool.false_ne_true
      | some block =>
        rw [Option.any_some, hleft id hid block hblock]
        exact Bool.false_ne_true
    refine ⟨hleft, ?_⟩
    rw [hreached.run_removeLocals hread, hnone, withoutLocalOnly_of_nil hnone]
    rfl

/-- Typedefs that refer to each other are inlined, and the blocks that are left are removed. -/
theorem second_run_of_chained : ∃ first state count state',
    Program.read chainedTypedefs = .ok first ∧
    (∃ count, (Pass.inlineTypedefs : Pass Program Nat).run.run ⟨first, []⟩ = (.ok count, state) ∧
      0 < count) ∧
    (Pass.findTypedefs : Pass Program _).run.run state = (.ok [], state) ∧
    (Pass.inlineTypedefs : Pass Program Nat).run.run state = (.ok 0, state) ∧
    (Pass.removeLocals : Pass Program Nat).run.run state = (.ok count, state') ∧ 0 < count ∧
    (Pass.removeLocals : Pass Program Nat).run.run state' = (.ok 0, state') := by
  obtain ⟨first, count, state, hread, hrun, hall⟩ := exists_inlined_of_any chainedTypedefs
    (fun _ count program => 0 < count && program.localOnly.length != 0) (by decide +kernel)
  obtain ⟨hcount, hlocals⟩ := Bool.and_eq_true_iff.1 hall
  have hreached := ReachedFrom.inlineTypedefs ⟨first, []⟩ .refl
  rw [hrun] at hreached
  have hremove := hreached.run_removeLocals hread state.calls
  obtain ⟨hfind, hagain⟩ := (second_run_of_reachedFrom hread .refl []).1 count state hrun
  obtain ⟨-, hremoved⟩ := (second_run_of_reachedFrom hread hreached state.calls).2 _ _ hremove
  exact ⟨first, state, _, _, hread, ⟨count, hrun, of_decide_eq_true hcount⟩, hfind, hagain,
    hremove, Nat.pos_of_ne_zero (bne_iff_ne.1 hlocals), hremoved⟩

end Program

end DocTypes
