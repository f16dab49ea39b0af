import DocTypes.Program.Editable
import DocTypes.Proofs.Pass.Keeps
import DocTypes.Proofs.Program.LocalTypedefs

/-!
# Inlining local typedefs

One step inlines one typedef: it overwrites every slot that holds the name and is used, and takes
the tag out (`run_inlineTypedef`). So the name is replaced in the types of all tags that are left
(`Replaces.inlines`), and what the other names stand for is what it was, with this name replaced. A
run does away with one name after the other (`run_inlineAll`): it fails if there is a cycle among
the typedefs, since doing away with a name keeps cycles until one is a typedef that refers to
itself, and otherwise every type is expanded.
-/

namespace DocTypes

open List

/-- A block without a tag has the other tags. -/
theorem Block.tags_withoutTag (tag : Tag) (block : Block) :
    (block.withoutTag tag).tags = block.tags.eraseP fun other => other.id == tag.id := by
  rw [withoutTag]
  split
  case isTrue => rfl
  case isFalse hany =>
    refine (eraseP_of_forall_not fun other hother hid => hany ?_).symm
    exact any_eq_true.2 ⟨other, hother, hid⟩

/-- Among tags with different numbers, one is taken out. -/
theorem mem_eraseP_id {tag other : Tag} {tags : List Tag} (h : (tags.map Tag.id).Nodup)
    (htag : tag ∈ tags) :
    other ∈ tags.eraseP (fun other => other.id == tag.id) ↔ other ∈ tags ∧ other ≠ tag := by
  induction tags with
  | nil => cases htag
  | cons first rest ih =>
    rw [map_cons, nodup_cons] at h
    by_cases hfirst : first.id = tag.id
    · have heq : first = tag := by
        rcases mem_cons.1 htag with rfl | htag
        · rfl
        · exact absurd (hfirst ▸ mem_map_of_mem htag) h.1
      subst heq
      have hapart : other ∈ rest → other ≠ first := by
        rintro hmem rfl
        exact h.1 (mem_map_of_mem hmem)
      rw [eraseP_cons_of_pos (by simp), mem_cons]
      tauto
    · have hne : first ≠ tag := fun heq => hfirst (heq ▸ rfl)
      have hrest := ih h.2 ((mem_cons.1 htag).resolve_left hne.symm)
      rw [eraseP_cons_of_neg (by simpa using hfirst), mem_cons, mem_cons, hrest]
      refine ⟨?_, ?_⟩
      · rintro (rfl | hother)
        · exact ⟨.inl rfl, hne⟩
        · exact ⟨.inr hother.1, hother.2⟩
      · rintro ⟨rfl | hother, hother'⟩
        · exact .inl rfl
        · exact .inr ⟨hother, hother'⟩

/-- A slot that was overwritten is noted. -/
theorem Arena.mem_replaced {arena arena' : Arena} {key source other : Nat}
    (h : arena.replace? key source = some arena') :
    other ∈ arena'.replaced ↔ other = key ∨ other ∈ arena.replaced := by
  obtain ⟨node, -, h⟩ := Option.bind_eq_some_iff.1 h
  obtain ⟨_, -, h⟩ := Option.bind_eq_some_iff.1 h
  cases h
  dsimp only
  split
  case isTrue hkey =>
    refine ⟨.inr, ?_⟩
    rintro (rfl | hother)
    · exact contains_iff_mem.1 hkey
    · exact hother
  case isFalse => exact mem_cons

namespace Program

/-- A program whose typedefs can be inlined: all can be seen of it, its types are trees, and its
blocks know their tags. -/
structure Inlinable (program : Program) : Prop where
  legible : program.Legible
  grounded : program.types.Grounded
  owners : ∀ id block, program.block? id = some block → ∀ tag ∈ block.tags, tag.owner = some id
  distinct : ∀ id block, program.block? id = some block → (block.tags.map Tag.id).Nodup

variable {program program' : Program} {tag : Tag} {tags : List Tag} {key : Nat}
  {inner : TypeExpr} {calls : List HookCall}

/-- A program that was read is inlinable. -/
theorem ReadFrom.inlinable {source : List Char} {pieces : List Piece} {lexed : Lexed}
    (h : program.ReadFrom source pieces lexed) : program.Inlinable where
  legible := h.legible
  grounded := h.blocks.tags.types.layered.grounded
  owners := by
    intro id block hblock tag htag
    have howner := h.blocks.owners id block (Array.getElem?_toList.trans hblock) tag htag
    rwa [Nat.zero_add] at howner
  distinct := by
    intro id block hblock
    have hmem : block ∈ program.blocks.toList :=
      mem_of_getElem? (Array.getElem?_toList.trans hblock)
    have hsub : block.tags.Sublist (program.blocks.toList.flatMap Block.tags) :=
      sublist_flatten_of_mem (mem_map_of_mem hmem)
    exact pairwise_map.2 (h.blocks.tags.distinct.sublist hsub)

/-- The key of a tag's type has a slot. -/
theorem HasTag.lt_size (h : program.Inlinable) (htag : program.HasTag tag)
    (hkey : tag.typeKey = some key) : key < program.types.slots.size := by
  obtain ⟨id, -, block, hblock, hmem⟩ := htag
  exact h.legible.keys id block hblock tag hmem key hkey

/-- All can be seen of a program with other types, if they have as many slots. -/
theorem Legible.retype {types : Arena} (h : program.Legible) (hclosed : types.Closed)
    (hsize : types.slots.size = program.types.slots.size) : { program with types }.Legible where
  source := h.source
  rooted := h.rooted
  registered := h.registered
  keys := fun id block hblock tag htag key hkey =>
    Nat.lt_of_lt_of_eq (h.keys id block hblock tag htag key hkey) hsize.symm
  types := hclosed

/-- Slots that hold a name are overwritten. -/
theorem Inlinable.overwrite {keys : List Nat} {types : Arena} (h : program.Inlinable)
    (hover : program.types.Overwrites keys key types)
    (hinner : program.types.tree? key = some inner)
    (hsource : ∀ other, program.types.Below key other → other ∉ keys) :
    { program with types }.Inlinable where
  legible := h.legible.retype (hover.closed h.legible.types) hover.size
  grounded := hover.grounded hinner hsource h.grounded
  owners := h.owners
  distinct := h.distinct

/-- The second program lacks a tag of the first, and is the same otherwise. -/
structure Drops (program : Program) (tag : Tag) (program' : Program) : Prop where
  source : program'.source = program.source
  root : program'.root = program.root
  registered : program'.registered = program.registered
  types : program'.types = program.types
  blocks : ∀ id, Option.Rel (fun block block' => block'.tags.Sublist block.tags ∧
    ∀ other, other ∈ block'.tags ↔ other ∈ block.tags ∧ other ≠ tag)
      (program.block? id) (program'.block? id)

/-- A tag is taken out of its block. -/
theorem exists_removeTag (h : program.Inlinable) (htag : program.HasTag tag) :
    ∃ program', program.removeTag (.tag tag) = .ok program' ∧ program.Drops tag program' := by
  obtain ⟨owner, -, block, hblock, hmem⟩ := htag
  have howner := h.owners owner block hblock tag hmem
  refine ⟨{ program with blocks := program.blocks.modify owner (·.withoutTag tag) }, ?_,
    rfl, rfl, rfl, rfl, fun id => ?_⟩
  · simp only [removeTag, asTag, bind, Except.bind, howner]
    rfl
  · change Option.Rel _ (program.block? id) (program.blocks.modify owner _)[id]?
    rw [Array.getElem?_modify, show program.blocks[id]? = program.block? id from rfl]
    by_cases hid : owner = id
    · subst hid
      rw [if_pos rfl, hblock]
      refine .some ?_
      rw [Block.tags_withoutTag]
      exact ⟨eraseP_sublist, fun other => mem_eraseP_id (h.distinct owner block hblock) hmem⟩
    · rw [if_neg hid]
      cases hother : program.block? id with
      | none => exact .none
      | some otherBlock =>
        refine .some ⟨.refl _, fun other => ⟨fun hmem' => ⟨hmem', ?_⟩, And.left⟩⟩
        rintro rfl
        have howner' := h.owners id otherBlock hother other hmem'
        rw [howner] at howner'
        exact hid (Option.some.inj howner')

/-- A program without a tag that it had. -/
theorem drops_of_removeTag (h : program.Inlinable) (htag : program.HasTag tag)
    (hremove : program.removeTag (.tag tag) = .ok program') : program.Drops tag program' := by
  obtain ⟨_, hother, hdrops⟩ := exists_removeTag h htag
  rw [hremove] at hother
  cases hother
  exact hdrops

section
variable (h : program.Drops tag program')
include h

/-- A block that lacks a tag, and the block that has it. -/
theorem Drops.exists_block {id : Nat} {block' : Block}
    (hblock' : program'.block? id = some block') : ∃ block, program.block? id = some block ∧
      block'.tags.Sublist block.tags ∧
      ∀ other, other ∈ block'.tags ↔ other ∈ block.tags ∧ other ≠ tag := by
  have hrel := h.blocks id
  rw [hblock'] at hrel
  generalize hblock : program.block? id = block? at hrel
  cases hrel with
  | some hrel => exact ⟨_, rfl, hrel⟩

/-- A block that has a tag, and the block that lacks it. -/
theorem Drops.exists_block' {id : Nat} {block : Block} (hblock : program.block? id = some block) :
    ∃ block', program'.block? id = some block' ∧
      ∀ other, other ∈ block'.tags ↔ other ∈ block.tags ∧ other ≠ tag := by
  have hrel := h.blocks id
  rw [hblock] at hrel
  generalize hblock' : program'.block? id = block? at hrel
  cases hrel with
  | some hrel => exact ⟨_, rfl, hrel.2⟩

/-- Without a tag a program is still inlinable. -/
theorem Drops.inlinable (hi : program.Inlinable) : program'.Inlinable where
  legible := {
    source := h.source ▸ hi.legible.source
    rooted := h.root ▸ hi.legible.rooted
    registered := by
      intro id hid
      obtain ⟨block, hblock⟩ := hi.legible.registered id (h.registered ▸ hid)
      obtain ⟨block', hblock', -⟩ := h.exists_block' hblock
      exact ⟨block', hblock'⟩
    keys := by
      intro id block' hblock' other hother key hkey
      obtain ⟨block, hblock, hsub, -⟩ := h.exists_block hblock'
      rw [h.types]
      exact hi.legible.keys id block hblock other (hsub.subset hother) key hkey
    types := h.types ▸ hi.legible.types }
  grounded := h.types ▸ hi.grounded
  owners := by
    intro id block' hblock' other hother
    obtain ⟨block, hblock, hsub, -⟩ := h.exists_block hblock'
    exact hi.owners id block hblock other (hsub.subset hother)
  distinct := by
    intro id block' hblock'
    obtain ⟨block, hblock, hsub, -⟩ := h.exists_block hblock'
    exact (hi.distinct id block hblock).sublist (hsub.map _)

/-- The other tags stay in registered blocks. -/
theorem Drops.hasTag_iff {other : Tag} :
    program'.HasTag other ↔ program.HasTag other ∧ other ≠ tag := by
  constructor
  · rintro ⟨id, hid, block', hblock', hother⟩
    obtain ⟨block, hblock, -, hiff⟩ := h.exists_block hblock'
    obtain ⟨hold, hne⟩ := (hiff other).1 hother
    exact ⟨⟨id, h.registered ▸ hid, block, hblock, hold⟩, hne⟩
  · rintro ⟨⟨id, hid, block, hblock, hother⟩, hne⟩
    obtain ⟨block', hblock', hiff⟩ := h.exists_block' hblock
    exact ⟨id, h.registered.symm ▸ hid, block', hblock', (hiff other).2 ⟨hother, hne⟩⟩

end

/-- A tag as a typedef with this type. -/
def typedefAt (tag : Tag) (key : Nat) : Pass.Typedef Value Nat :=
  { name := tag.name, key, tag := .tag tag }

open Pass (replaceAll inlineTypedef)

section
variable {own keys : List Nat} {first : Nat}

/-- A reference in the type that takes its place is refused. -/
theorem run_replaceAll_own (hown : first ∈ own) (rest : List Value) :
    (replaceAll (typedefAt tag key) own (.type ⟨first, .name tag.name⟩ :: rest) :
      Pass Program Unit).run.run ⟨program, calls⟩ =
      (.error (.shape (.recursiveTypedef tag.name) (lineStart? (some tag.line))),
        ⟨program, calls⟩) := by
  rw [replaceAll, Pass.run_bind_ok (Pass.run_ask _ _)]
  exact congrArg (fun pass : Pass Program Unit => pass.run.run ⟨program, calls⟩)
    (if_pos (contains_iff_mem.2 hown))

/-- Another reference is replaced. -/
theorem run_replaceAll_other (hown : first ∉ own) {rest : List Value} {types : Arena}
    (hreplace : program.types.replace? first key = some types) :
    (replaceAll (typedefAt tag key) own (.type ⟨first, .name tag.name⟩ :: rest) :
      Pass Program Unit).run.run ⟨program, calls⟩ =
      (replaceAll (typedefAt tag key) own rest).run.run ⟨{ program with types }, calls⟩ := by
  have hedit : (Editable.replaceType first key program : Except AccessFault Program) =
      .ok { program with types } := by
    change (do return { program with types := ← inRange (program.types.replace? first key) }) = _
    rw [hreplace]
    rfl
  have hchange : (Pass.change (Editable.replaceType first key) : Pass Program Unit).run.run
      ⟨program, calls⟩ = (.ok (), ⟨{ program with types }, calls⟩) := by
    rw [Pass.run_change, hedit]
  rw [replaceAll, Pass.run_bind_ok (Pass.run_ask _ _)]
  have hnot : ¬own.contains first = true := fun hcontains => hown (contains_iff_mem.1 hcontains)
  exact (congrArg (fun pass : Pass Program Unit => pass.run.run ⟨program, calls⟩)
    (if_neg hnot)).trans (Pass.run_bind_ok hchange)

/-- References are replaced, if none of them stands in the type that takes their place. -/
theorem run_replaceAll (hkey : key ∈ own) (hapart : ∀ other ∈ keys, other ∉ own) :
    ∀ program : Program, (∀ other ∈ keys, other < program.types.slots.size) →
    key < program.types.slots.size →
    ∃ types, (replaceAll (typedefAt tag key) own
        (keys.map fun other => Value.type ⟨other, .name tag.name⟩) : Pass Program Unit).run.run
          ⟨program, calls⟩ = (.ok (), ⟨{ program with types }, calls⟩) ∧
      program.types.Overwrites keys key types ∧
      ∀ other, other ∈ types.replaced ↔ other ∈ keys ∨ other ∈ program.types.replaced := by
  induction keys with
  | nil => exact fun program _ _ => ⟨program.types, rfl, .refl _ _, fun other => by simp⟩
  | cons first rest ih =>
    intro program hkeys hsource
    obtain ⟨hfirst, hrest⟩ := forall_mem_cons.1 hkeys
    obtain ⟨hfirstApart, hrestApart⟩ := forall_mem_cons.1 hapart
    obtain ⟨middle, hreplace, hover⟩ := Arena.exists_replace? hfirst hsource
    obtain ⟨types, hrun, hlater, hreplaced⟩ := ih hrestApart { program with types := middle }
      (fun other hother => Nat.lt_of_lt_of_eq (hrest other hother) hover.size.symm)
      (Nat.lt_of_lt_of_eq hsource hover.size.symm)
    refine ⟨types, (run_replaceAll_other hfirstApart hreplace).trans hrun, hover.trans hlater ?_,
      fun other => ?_⟩
    · rintro rfl
      exact hfirstApart hkey
    · rw [hreplaced, Arena.mem_replaced hreplace, mem_cons]
      tauto

/-- A reference that stands in the type that takes its place is refused sooner or later. -/
theorem run_replaceAll_recursive (hown : ∃ other ∈ keys, other ∈ own) :
    ∀ program : Program, (∀ other ∈ keys, other < program.types.slots.size) →
    key < program.types.slots.size →
    ∃ state, (replaceAll (typedefAt tag key) own
        (keys.map fun other => Value.type ⟨other, .name tag.name⟩) : Pass Program Unit).run.run
          ⟨program, calls⟩ =
      (.error (.shape (.recursiveTypedef tag.name) (lineStart? (some tag.line))), state) := by
  induction keys with
  | nil => obtain ⟨_, hmem, -⟩ := hown; cases hmem
  | cons first rest ih =>
    intro program hkeys hsource
    by_cases hfirstOwn : first ∈ own
    · exact ⟨_, run_replaceAll_own hfirstOwn _⟩
    · obtain ⟨hfirst, hrest⟩ := forall_mem_cons.1 hkeys
      obtain ⟨middle, hreplace, hover⟩ := Arena.exists_replace? hfirst hsource
      have hown' : ∃ other ∈ rest, other ∈ own := by
        obtain ⟨other, hother, hmem⟩ := hown
        rcases mem_cons.1 hother with rfl | hother
        · exact absurd hmem hfirstOwn
        · exact ⟨other, hother, hmem⟩
      obtain ⟨state, hrun⟩ := ih hown' { program with types := middle }
        (fun other hother => Nat.lt_of_lt_of_eq (hrest other hother) hover.size.symm)
        (Nat.lt_of_lt_of_eq hsource hover.size.symm)
      exact ⟨state, (run_replaceAll_other hfirstOwn hreplace).trans hrun⟩

end

/-- What a step asks before it replaces references: those to the name, and what stands in its type.
-/
theorem run_inlineTypedef_eq {references : List Value} {own : List Nat}
    (hquery : program.query (Pass.references tag.name) = .ok references)
    (hreachable : program.types.reachable? key = some own) :
    (inlineTypedef (typedefAt tag key) : Pass Program Nat).run.run ⟨program, calls⟩ =
      (do
        replaceAll (typedefAt tag key) own references
        Pass.change (Editable.removeTag (Value.tag tag))
        return references.length : Pass Program Nat).run.run ⟨program, calls⟩ := by
  have hreferences : (Pass.query (Pass.references tag.name) : Pass Program (List Value)).run.run
      ⟨program, calls⟩ = (.ok references, ⟨program, calls⟩) := by
    rw [Pass.run_query]
    change ((program.query _).mapError _, _) = _
    rw [hquery]
    rfl
  have hown : (Pass.ask fun program : Program => Editable.reachable program key).run.run
      ⟨program, calls⟩ = (.ok own, ⟨program, calls⟩) := by
    rw [Pass.run_ask]
    change ((inRange (program.types.reachable? key)).mapError _, _) = _
    rw [hreachable]
    rfl
  exact (Pass.run_bind_ok hreferences).trans (Pass.run_bind_ok hown)

/-- What a step does to a program: the slots that are used and hold the name of the tag are given
the type of the tag, which holds none of them, and the tag is taken out. -/
structure Replaces (program : Program) (tag : Tag) (key : Nat) (keys : List Nat) (types : Arena)
    (program' : Program) : Prop where
  uses : ∀ other, other ∈ keys ↔ program.Uses other ∧ program.types.IsName tag.name other
  apart : ∀ other, program.types.Below key other → other ∉ keys
  overwrites : program.types.Overwrites keys key types
  replaced : ∀ other, other ∈ types.replaced ↔ other ∈ keys ∨ other ∈ program.types.replaced
  removed : { program with types }.removeTag (.tag tag) = .ok program'

/-- What inlining a tag makes of a program: the tag is gone, and its name is replaced by its type in
the types of all tags. -/
structure Inlines (program : Program) (tag : Tag) (inner : TypeExpr) (program' : Program) :
    Prop where
  inlinable : program'.Inlinable
  hasTag : ∀ other, program'.HasTag other ↔ program.HasTag other ∧ other ≠ tag
  tree : ∀ other, program.HasTag other → ∀ key, other.typeKey = some key →
    ∀ type, program.types.tree? key = some type →
      program'.types.tree? key = some (type.subst (TypeExpr.only tag.name inner))

section
variable (h : program.Inlinable) (htag : program.HasTag tag) (hkey : tag.typeKey = some key)
  (hlabel : '"' ∉ tag.name.toList) (hinner : program.types.tree? key = some inner)
include h htag hkey hlabel hinner

/-- A type that holds its own name is refused. -/
theorem run_inlineTypedef_recursive (hself : tag.name ∈ inner.names) :
    ∃ state, (inlineTypedef (typedefAt tag key) : Pass Program Nat).run.run ⟨program, calls⟩ =
      (.error (.shape (.recursiveTypedef tag.name) (lineStart? (some tag.line))), state) := by
  have hlt := htag.lt_size h hkey
  obtain ⟨keys, hquery, hkeys⟩ := query_references h.legible h.grounded hlabel
  obtain ⟨own, hreachable, hown⟩ := Arena.exists_reachable? h.legible.types hlt
  obtain ⟨other, hbelow, hname⟩ := (Arena.mem_names_tree hinner).1 hself
  have hboth : ∃ other ∈ keys, other ∈ own :=
    ⟨other, (hkeys other).2 ⟨⟨tag, key, htag, hkey, hbelow⟩, hname⟩, (hown other).2 hbelow⟩
  have hslots : ∀ other ∈ keys, other < program.types.slots.size := by
    intro other hother
    obtain ⟨-, node, hnode, -⟩ := (hkeys other).1 hother
    exact Arena.lt_size_of_get hnode
  obtain ⟨state, hrun⟩ := run_replaceAll_recursive hboth program hslots hlt
  refine ⟨state, ?_⟩
  rw [run_inlineTypedef_eq hquery hreachable, Pass.run_bind, hrun]

/-- A type that does not hold its own name is inlined. -/
theorem run_inlineTypedef (hself : tag.name ∉ inner.names) :
    ∃ count keys types program', (inlineTypedef (typedefAt tag key) : Pass Program Nat).run.run
      ⟨program, calls⟩ = (.ok count, ⟨program', calls⟩) ∧
        program.Replaces tag key keys types program' := by
  have hlt := htag.lt_size h hkey
  obtain ⟨keys, hquery, hkeys⟩ := query_references h.legible h.grounded hlabel
  obtain ⟨own, hreachable, hown⟩ := Arena.exists_reachable? h.legible.types hlt
  have hslots : ∀ other ∈ keys, other < program.types.slots.size := by
    intro other hother
    obtain ⟨-, node, hnode, -⟩ := (hkeys other).1 hother
    exact Arena.lt_size_of_get hnode
  have hapart : ∀ other ∈ keys, other ∉ own := fun other hother hmem =>
    hself ((Arena.mem_names_tree hinner).2 ⟨other, (hown other).1 hmem, ((hkeys other).1 hother).2⟩)
  have hsource : ∀ other, program.types.Below key other → other ∉ keys :=
    fun other hbelow hmem => hapart other hmem ((hown other).2 hbelow)
  obtain ⟨types, hreplace, hover, hreplaced⟩ :=
    run_replaceAll ((hown key).2 .refl) hapart program hslots hlt
  have hmiddle := h.overwrite hover hinner hsource
  obtain ⟨program', hremove, -⟩ :=
    exists_removeTag hmiddle (show { program with types }.HasTag tag from htag)
  have hchange : (Pass.change (Editable.removeTag (Value.tag tag)) : Pass Program Unit).run.run
      ⟨{ program with types }, calls⟩ = (.ok (), ⟨program', calls⟩) := by
    have hedit : (Editable.removeTag (Value.tag tag) { program with types } :
        Except AccessFault Program) = .ok program' := hremove
    rw [Pass.run_change, hedit]
  refine ⟨(keys.map fun other => Value.type ⟨other, .name tag.name⟩).length, keys, types, program',
    ?_, hkeys, hsource, hover, hreplaced, hremove⟩
  rw [run_inlineTypedef_eq hquery hreachable, Pass.run_bind_ok hreplace, Pass.run_bind_ok hchange]
  rfl

end

section
variable {keys : List Nat} {types : Arena} (hstep : program.Replaces tag key keys types program')
  (h : program.Inlinable) (htag : program.HasTag tag)
  (hinner : program.types.tree? key = some inner)
include hstep h htag hinner

/-- A step takes the tag out of the program with the new types. -/
theorem Replaces.drops : { program with types }.Inlinable ∧
    { program with types }.Drops tag program' := by
  have hmiddle := h.overwrite hstep.overwrites hinner hstep.apart
  exact ⟨hmiddle, drops_of_removeTag hmiddle htag hstep.removed⟩

/-- A step does away with the tag and with its name. -/
theorem Replaces.inlines : program.Inlines tag inner program' := by
  obtain ⟨hmiddle, hdrops⟩ := hstep.drops h htag hinner
  refine ⟨hdrops.inlinable hmiddle, fun other => hdrops.hasTag_iff,
    fun other hother top htop type htype => ?_⟩
  rw [hdrops.types]
  refine hstep.overwrites.tree?_eq_subst hinner hstep.apart
    (fun used hused => ((hstep.uses used).1 hused).2) htype ?_
  exact fun used hbelow hname => (hstep.uses used).2 ⟨⟨other, top, hother, htop, hbelow⟩, hname⟩

end

/-- The tags can be inlined: they stand in registered blocks, have types, and have different names
without quotes. -/
structure Declared (program : Program) (tags : List Tag) : Prop where
  hasTag : ∀ tag ∈ tags, program.HasTag tag
  typed : ∀ tag ∈ tags, tag.typeKey.isSome
  plain : ∀ tag ∈ tags, '"' ∉ tag.name.toList
  distinct : (tags.map Tag.name).Nodup

/-- The type of a tag in a registered block. -/
theorem HasTag.exists_tree (h : program.Inlinable) (htag : program.HasTag tag)
    (hkey : tag.typeKey = some key) : ∃ type, program.types.tree? key = some type :=
  Option.isSome_iff_exists.1 (h.grounded key (htag.lt_size h hkey))

/-- The first of some tags has a type, and its name stands for it. -/
theorem Declared.exists_head (hd : program.Declared (tag :: tags)) (h : program.Inlinable) :
    ∃ key inner, tag.typeKey = some key ∧ program.types.tree? key = some inner ∧
      program.definitions (tag :: tags) tag.name = some inner := by
  obtain ⟨key, hkey⟩ := Option.isSome_iff_exists.1 (hd.typed tag (.head _))
  obtain ⟨inner, hinner⟩ := (hd.hasTag tag (.head _)).exists_tree h hkey
  refine ⟨key, inner, hkey, hinner, ?_⟩
  have hfind : (tag :: tags).find? (fun other => other.name == tag.name) = some tag :=
    find?_cons_of_pos (beq_self_eq_true tag.name)
  rw [definitions, hfind]
  change (tag.typeKey.bind fun key => program.types.tree? key) = _
  rw [hkey]
  exact hinner

/-- After a tag was inlined, the names of the others stand for what they stood for, with the name of
the tag replaced. -/
theorem Inlines.definitions_eq (hstep : program.Inlines tag inner program') (h : program.Inlinable)
    (hd : program.Declared (tag :: tags)) :
    program'.definitions tags = (program.definitions (tag :: tags)).inline tag.name inner := by
  have hnames := hd.distinct
  rw [map_cons, nodup_cons] at hnames
  funext label
  rw [Definitions.inline, definitions, definitions]
  by_cases hlabel : label = tag.name
  · have hnone : tags.find? (fun other => other.name == label) = none := by
      refine find?_eq_none.2 fun other hother heq => hnames.1 ?_
      rw [← hlabel, ← beq_iff_eq.1 heq]
      exact mem_map_of_mem hother
    rw [if_pos hlabel, hnone]
    rfl
  · rw [if_neg hlabel, find?_cons_of_neg (by simpa using Ne.symm hlabel)]
    cases hfind : tags.find? (fun other => other.name == label) with
    | none => rfl
    | some other =>
      have hother := hd.hasTag other (.tail _ (mem_of_find?_eq_some hfind))
      change (other.typeKey.bind fun key => program'.types.tree? key) =
        (other.typeKey.bind fun key => program.types.tree? key).map _
      cases hkey : other.typeKey with
      | none => rfl
      | some key =>
        obtain ⟨type, htype⟩ := hother.exists_tree h hkey
        rw [Option.bind_some, Option.bind_some, htype, hstep.tree other hother key hkey type htype]
        rfl

/-- The other tags can be inlined after one was. -/
theorem Inlines.declared (hstep : program.Inlines tag inner program')
    (hd : program.Declared (tag :: tags)) : program'.Declared tags where
  hasTag := by
    intro other hother
    refine (hstep.hasTag other).2 ⟨hd.hasTag other (.tail _ hother), ?_⟩
    rintro rfl
    have hnames := hd.distinct
    rw [map_cons, nodup_cons] at hnames
    exact hnames.1 (mem_map_of_mem hother)
  typed := fun other hother => hd.typed other (.tail _ hother)
  plain := fun other hother => hd.plain other (.tail _ hother)
  distinct := by
    have hnames := hd.distinct
    rw [map_cons, nodup_cons] at hnames
    exact hnames.2

/-- The tags as typedefs. -/
def typedefs (tags : List Tag) : List (Pass.Typedef Value Nat) :=
  tags.filterMap fun tag => tag.typeKey.map (typedefAt tag)

/-- The tags are gone, and the types of the others are expanded. -/
structure Expanded (program : Program) (tags : List Tag) (program' : Program) : Prop where
  hasTag : ∀ other, program'.HasTag other ↔ program.HasTag other ∧ other ∉ tags
  types : ∀ other, program'.HasTag other → ∀ key, other.typeKey = some key →
    ∃ before after, program.types.tree? key = some before ∧ program'.types.tree? key = some after ∧
      (program.definitions tags).Expands before after

/-- One step and the run after it. -/
theorem Inlines.expanded {program'' : Program} (hstep : program.Inlines tag inner program')
    (h : program.Inlinable) (hd : program.Declared (tag :: tags))
    (hinner : program.definitions (tag :: tags) tag.name = some inner)
    (hself : tag.name ∉ inner.names) (hlater : program'.Expanded tags program'') :
    program.Expanded (tag :: tags) program'' where
  hasTag := by
    intro other
    rw [hlater.hasTag, hstep.hasTag, mem_cons, not_or, and_assoc]
  types := by
    intro other hother key hkey
    have hbefore := ((hstep.hasTag other).1 ((hlater.hasTag other).1 hother).1).1
    obtain ⟨before, hbeforeTree⟩ := hbefore.exists_tree h hkey
    obtain ⟨middle, after, hmiddle, hafter, hexpands⟩ := hlater.types other hother key hkey
    rw [hstep.tree other hbefore key hkey before hbeforeTree] at hmiddle
    cases hmiddle
    rw [hstep.definitions_eq h hd] at hexpands
    exact ⟨before, after, hbeforeTree, hafter, hexpands.of_inline hinner hself⟩

/-- A run over some tags fails if there is a cycle among them, and expands all types otherwise. -/
theorem run_inlineAll (calls : List HookCall) :
    ∀ {tags : List Tag} {program : Program}, program.Inlinable →
    program.Declared tags →
    ((program.definitions tags).IsCyclic → ∃ tag ∈ tags, ∃ state,
      ((typedefs tags).mapM inlineTypedef : Pass Program (List Nat)).run.run ⟨program, calls⟩ =
        (.error (.shape (.recursiveTypedef tag.name) (lineStart? (some tag.line))), state)) ∧
    (¬ (program.definitions tags).IsCyclic → ∃ counts program',
      ((typedefs tags).mapM inlineTypedef : Pass Program (List Nat)).run.run ⟨program, calls⟩ =
        (.ok counts, ⟨program', calls⟩) ∧ program.Expanded tags program') := by
  intro tags
  induction tags with
  | nil =>
    intro program h hd
    have hnone : ∀ label, program.definitions [] label = none := fun label => rfl
    refine ⟨fun ⟨label, hcycle⟩ => ?_, fun _ => ⟨[], program, rfl, ?_, ?_⟩⟩
    · obtain ⟨_, ⟨type, htype, -⟩, -⟩ := Relation.TransGen.head'_iff.1 hcycle
      rw [hnone] at htype
      cases htype
    · simp
    · intro other hother key hkey
      obtain ⟨type, htype⟩ := hother.exists_tree h hkey
      exact ⟨type, type, htype, htype, Definitions.expands_self fun label _ => hnone label⟩
  | cons tag rest ih =>
    intro program h hd
    obtain ⟨key, inner, hkey, hinner, hdef⟩ := hd.exists_head h
    have htypedefs : typedefs (tag :: rest) = typedefAt tag key :: typedefs rest :=
      filterMap_cons_some (by rw [hkey]; rfl)
    have htag := hd.hasTag tag (.head _)
    have hlabel := hd.plain tag (.head _)
    rw [htypedefs, mapM_cons]
    by_cases hself : tag.name ∈ inner.names
    · -- the type holds its own name, which is a cycle
      have hcycle : (program.definitions (tag :: rest)).IsCyclic :=
        ⟨tag.name, .single ⟨inner, hdef, hself, by rw [hdef]; rfl⟩⟩
      refine ⟨fun _ => ?_, fun hnot => absurd hcycle hnot⟩
      obtain ⟨state, hrun⟩ := run_inlineTypedef_recursive h htag hkey hlabel hinner hself
      exact ⟨tag, .head _, state, by rw [Pass.run_bind, hrun]⟩
    · obtain ⟨count, keys, types, program', hrun, hreplaces⟩ :=
        run_inlineTypedef h htag hkey hlabel hinner hself
      have hstep := hreplaces.inlines h htag hinner
      obtain ⟨hcyclic, hacyclic⟩ := ih hstep.inlinable (hstep.declared hd)
      rw [hstep.definitions_eq h hd, Definitions.isCyclic_inline hdef hself] at hcyclic hacyclic
      rw [Pass.run_bind_ok hrun]
      refine ⟨fun hcycle => ?_, fun hnot => ?_⟩
      · obtain ⟨other, hother, state, hlater⟩ := hcyclic hcycle
        exact ⟨other, .tail _ hother, state, by rw [Pass.run_bind, hlater]⟩
      · obtain ⟨counts, program'', hlater, hexpanded⟩ := hacyclic hnot
        refine ⟨count :: counts, program'', ?_, hstep.expanded h hd hdef hself hexpanded⟩
        rw [Pass.run_bind_ok hlater]
        rfl

end Program

end DocTypes
