import DocTypes.Proofs.Program.Frame
import DocTypes.Proofs.Program.Sound
import DocTypes.Proofs.Tree.Documented
import DocTypes.Proofs.TypeExpr.Insert

/-!
# Programs that passes work on

A program that was read is `Orderly`: its body holds statements, its registered blocks are there,
each once, and what its nodes and tags name is there too. Passes keep this. They may put blocks at
the end of the body, but none with `@export`. So the query for blocks with `@export` gives the
registered ones, in their order (`Orderly.query_exports`). An orderly program is sound, so typedefs
are inlined through sound programs only (`inlineTypedefs_sound`).

While types of classes are put together, a program only grows (`Grows`): blocks and types are added,
and what was there before is there as it was.
-/

namespace DocTypes

open List

/-- The type of a tag reads the same after types were added. -/
theorem Tag.currentType_extends {tag : Tag} {types types' : Arena} (h : types.Extends types')
    (hclosed : types.Closed) (hclosed' : types'.Closed) (hgrounded : types.Grounded)
    (hkey : ∀ key, tag.typeKey = some key → key < types.slots.size) :
    tag.currentType types' = tag.currentType types := by
  cases htype : tag.typeKey with
  | none => simp only [currentType, isTouched, htype, Option.map_none, Option.getD_none]; rfl
  | some key =>
    have hlt := hkey key htype
    have hprint : types'.print? key = types.print? key := by
      obtain ⟨type, htree⟩ := Option.isSome_iff_exists.1 (hgrounded key hlt)
      rw [Arena.print?, Arena.print?, htree, h.tree? htree]
    have htouched : types'.touched key = types.touched key := by
      obtain ⟨keys, hkeys, hmem⟩ := Arena.exists_reachable? hclosed hlt
      obtain ⟨keys', hkeys', hmem'⟩ :=
        Arena.exists_reachable? hclosed' (Nat.lt_of_lt_of_le hlt h.size)
      have hsame : ∀ other, other ∈ keys' ↔ other ∈ keys := by
        intro other
        rw [hmem, hmem']
        refine ⟨h.below hclosed hlt, fun hbelow => ?_⟩
        induction hbelow with
        | refl => exact .refl
        | tail _ hpart ih =>
          obtain ⟨node, hnode, hmem⟩ := hpart
          exact ih.tail ⟨node, h.get _ node hnode, hmem⟩
      have hany : keys'.any types.replaced.contains = keys.any types.replaced.contains := by
        rw [Bool.eq_iff_iff, any_eq_true, any_eq_true]
        exact exists_congr fun other => and_congr_left' (hsame other)
      rw [Arena.touched, Arena.touched, Arena.touched?, Arena.touched?, h.replaced, hkeys, hkeys',
        Option.map_some, Option.map_some, hany]
    simp only [currentType, isTouched, htype, Option.map_some, Option.getD_some, Option.bind_some,
      hprint, htouched]

/-- Tags that are left of tags without a title are without it. -/
theorem Block.hasTag_of_subset {block block' : Block} {title : String}
    (h : block'.tags ⊆ block.tags) (hblock : block.hasTag title = false) :
    block'.hasTag title = false := by
  rw [hasTag, any_eq_false] at hblock ⊢
  exact fun tag htag => hblock tag (h htag)

namespace Program

variable {program program' program'' : Program}

/-! ## Orderly programs -/

/-- The block is there, and has no tag `@export`. -/
def Unexported (program : Program) (id : Nat) : Prop :=
  ∃ block, program.block? id = some block ∧ block.hasTag "export" = false

/-- What holds of a program that was read, and of what passes make of it. -/
structure Orderly (program : Program) : Prop where
  source : ∃ source, program.source = some source
  kind : program.root.kind = .program
  unset : program.root.get? (.other "doc_blocks") = none
  body : ∃ (tokens : List Token) (items : List Value) (ids : List Nat),
    program.root.get? .body = some (.list (items ++ ids.map .block)) ∧
    (∀ item ∈ items, item = .null ∨ ∃ node, item = .node node ∧ Placed tokens node) ∧
    ∀ id ∈ ids, program.Unexported id
  registered : ∀ id ∈ program.registered, ∃ block, program.block? id = some block
  distinct : program.registered.Nodup
  keys : ∀ id block, program.block? id = some block → ∀ tag ∈ block.tags, ∀ key,
    tag.typeKey = some key → key < program.types.slots.size
  types : program.types.Closed
  grounded : program.types.Grounded
  docs : program.root.DocsIn program.blocks.size

/-- The registered blocks with `@export`. -/
def exports (program : Program) : List Nat :=
  program.registered.filter fun id => (program.block? id).any (·.hasTag "export")

/-- A program that was read is orderly. -/
theorem orderly_of_read {source : List Char} (h : Program.read source = .ok program) :
    program.Orderly := by
  obtain ⟨pieces, lexed, hfrom⟩ := readFrom_of_read h
  have hlegible := hfrom.legible
  have hrooted := hfrom.rooted
  refine ⟨hlegible.source, hrooted.kind, hrooted.unset, ?_, hlegible.registered, ?_, hlegible.keys,
    hlegible.types, hfrom.inlinable.grounded, docsIn_of_read h⟩
  · obtain ⟨items, hbody⟩ := hrooted.body
    have hvalues := childValues_of_body hrooted.kind hbody
    refine ⟨lexed.tokens, items, [], ?_, fun item hitem => ?_, nofun⟩
    · rw [map_nil, append_nil]
      exact Node.get?_of_get_list hbody
    · rw [← hvalues] at hitem
      rcases hrooted.arranged.null_or_node hitem with rfl | ⟨node, rfl⟩
      · exact .inl rfl
      · exact .inr ⟨node, rfl, hrooted.below node (mem_filterMap.2 ⟨_, hitem, rfl⟩)⟩
  · rw [hfrom.registered]
    exact nodup_range

/-! ## What edits keep -/

variable {id levels : Nat} {block : Block} {text : String} {above : List Value}
  {met : List (Value × List Value)}

/-- Blocks are put in the place of others, with tags that these have. -/
theorem Orderly.withBlocks (h : program.Orderly) {blocks : Array Block}
    (hsize : blocks.size = program.blocks.size)
    (htags : ∀ id block block', program.block? id = some block → blocks[id]? = some block' →
      block'.tags ⊆ block.tags) : { program with blocks }.Orderly := by
  have hthere : ∀ id block, program.block? id = some block →
      ∃ block', blocks[id]? = some block' := by
    intro id block hblock
    have hlt := (Array.getElem?_eq_some_iff.1 hblock).1
    exact ⟨blocks[id], Array.getElem?_eq_getElem (hsize ▸ hlt)⟩
  refine ⟨h.source, h.kind, h.unset, ?_, fun id hid => ?_, h.distinct, fun id block' hblock' => ?_,
    h.types, h.grounded, ?_⟩
  · obtain ⟨tokens, items, ids, hbody, hitems, hids⟩ := h.body
    refine ⟨tokens, items, ids, hbody, hitems, fun id hid => ?_⟩
    obtain ⟨block, hblock, hexport⟩ := hids id hid
    obtain ⟨block', hblock'⟩ := hthere id block hblock
    exact ⟨block', hblock', Block.hasTag_of_subset (htags id block block' hblock hblock') hexport⟩
  · obtain ⟨block, hblock⟩ := h.registered id hid
    exact hthere id block hblock
  · have hlt := (Array.getElem?_eq_some_iff.1 hblock').1
    have hblock : program.block? id = some program.blocks[id] :=
      Array.getElem?_eq_getElem (hsize ▸ hlt)
    exact fun tag htag => h.keys id _ hblock tag (htags id _ block' hblock hblock' htag)
  · exact hsize.symm ▸ h.docs

/-- Types may be replaced and tags taken out. -/
theorem steady_orderly : Steady Orderly where
  closed h := h.types
  grounded h := h.grounded
  retype {program types} h hclosed hgrounded hsize := by
    obtain ⟨hsource, hkind, hunset, hbody, hregistered, hdistinct, hkeys, -, -, hdocs⟩ := h
    refine ⟨hsource, hkind, hunset, hbody, hregistered, hdistinct, ?_, hclosed, hgrounded, hdocs⟩
    exact fun id block hblock tag htag key hkey =>
      Nat.lt_of_lt_of_eq (hkeys id block hblock tag htag key hkey) hsize.symm
  removeTag {program program' value} h hedit := by
    obtain ⟨tag, -, hedit⟩ := bind_eq_ok.1 hedit
    cases howner : tag.owner with
    | none =>
      rw [howner] at hedit
      cases hedit
    | some owner =>
      rw [howner] at hedit
      cases hedit
      refine h.withBlocks Array.size_modify fun id block block' hblock hblock' => ?_
      rw [Array.getElem?_modify, show program.blocks[id]? = some block from hblock] at hblock'
      split at hblock'
      · cases hblock'
        rw [Block.tags_withoutTag]
        exact eraseP_sublist.subset
      · cases hblock'
        exact List.Subset.refl _

/-- Blocks may be unregistered. -/
theorem Orderly.unregister (h : program.Orderly) (keep : Nat → Bool) :
    { program with registered := program.registered.filter keep }.Orderly where
  source := h.source
  kind := h.kind
  unset := h.unset
  body := h.body
  registered id hid := h.registered id (mem_filter.1 hid).1
  distinct := h.distinct.filter _
  keys := h.keys
  types := h.types
  grounded := h.grounded
  docs := h.docs

/-- The second program is the first with blocks and types that were added. The blocks have no place,
and neither `@export` nor `@local`. -/
structure Grows (program program' : Program) : Prop where
  source : program'.source = program.source
  sourceBlocks : program'.sourceBlocks = program.sourceBlocks
  root : program'.root = program.root
  registered : program'.registered = program.registered
  size : program.blocks.size ≤ program'.blocks.size
  blocks : ∀ id block, program.block? id = some block → program'.block? id = some block
  fresh : ∀ id block, program'.block? id = some block → program.block? id = some block ∨
    (block.span = none ∧ block.hasTag "export" = false ∧ block.hasTag "local" = false) ∧
      ∀ tag ∈ block.tags, ∀ key, tag.typeKey = some key → key < program'.types.slots.size
  types : program.types.Appended [] program'.types

theorem Grows.refl (program : Program) : program.Grows program :=
  ⟨rfl, rfl, rfl, rfl, Nat.le_refl _, fun _ _ => id, fun _ _ => .inl, Arena.appended_nil _⟩

theorem Grows.trans (h : program.Grows program') (h' : program'.Grows program'') :
    program.Grows program'' where
  source := h'.source.trans h.source
  sourceBlocks := h'.sourceBlocks.trans h.sourceBlocks
  root := h'.root.trans h.root
  registered := h'.registered.trans h.registered
  size := Nat.le_trans h.size h'.size
  blocks id block hblock := h'.blocks id block (h.blocks id block hblock)
  fresh id block hblock := by
    rcases h'.fresh id block hblock with hold | hnew
    · refine (h.fresh id block hold).imp_right fun hnew => ⟨hnew.1, fun tag htag key hkey => ?_⟩
      exact Nat.lt_of_lt_of_le (hnew.2 tag htag key hkey) h'.types.kept.size
    · exact .inr hnew
  types := h.types.append h'.types

/-- A block is added. -/
theorem grows_addBlock (hspan : block.span = none) {tag : Tag}
    (htitle : tag.title ≠ "export" ∧ tag.title ≠ "local")
    (hkey : ∀ key, tag.typeKey = some key → key < program.types.slots.size) :
    program.Grows (program.addBlock block tag).2 where
  source := rfl
  sourceBlocks := rfl
  root := rfl
  registered := rfl
  size := by
    change _ ≤ (program.blocks.push _).size
    rw [Array.size_push]
    exact Nat.le_succ _
  blocks id old hold := by
    have hlt := (Array.getElem?_eq_some_iff.1 hold).1
    change (program.blocks.push _)[id]? = _
    rw [Array.getElem?_push_lt hlt, ← Array.getElem?_eq_getElem hlt]
    exact hold
  fresh id block' hblock' := by
    change (program.blocks.push _)[id]? = _ at hblock'
    rw [Array.getElem?_push] at hblock'
    split at hblock'
    · cases hblock'
      refine .inr ⟨⟨hspan, ?_⟩, forall_mem_singleton.2 hkey⟩
      simpa [Block.hasTag] using htitle
    · exact .inl hblock'
  types := Arena.appended_nil _

/-- A type cast is made. -/
theorem grows_castText {type : String} (h : program.castText type = .ok (text, program')) :
    program.Grows program' := by
  obtain ⟨⟨id, added⟩, hadded, h⟩ := bind_eq_ok.1 h
  cases h
  have hadded := mapError_eq_ok.1 hadded
  rw [addTypeCast] at hadded
  split at hadded
  · cases hadded
    exact grows_addBlock rfl (by simp) fun _ hkey => by cases hkey
  · obtain ⟨⟨key, types⟩, hread, hadded⟩ := bind_eq_ok.1 hadded
    cases hadded
    rw [Arena.readInto_eq] at hread
    obtain ⟨expression, -, hinsert⟩ := bind_eq_ok.1 hread
    have happended := Arena.appended_insert expression program.types
    rw [Except.ok.inj hinsert] at happended
    have htypes : program.Grows { program with types } :=
      ⟨rfl, rfl, rfl, rfl, Nat.le_refl _, fun _ _ => id, fun _ _ => .inl,
        ⟨happended.kept, happended.fresh, forall_mem_nil _⟩⟩
    refine htypes.trans (grows_addBlock rfl (by simp) fun other hother => ?_)
    cases hother
    exact happended.keys _ (.head _)

theorem Grows.frame (h : program.Grows program') : program.Frame program' :=
  .of_root h.root h.source h.sourceBlocks fun id block hblock =>
    ⟨block, h.blocks id block hblock, .refl block⟩

/-- Blocks that were added have no place, and neither of the tags. -/
theorem Grows.added (h : program.Grows program') (hblock : program'.block? id = some block)
    (hid : program.blocks.size ≤ id) :
    block.span = none ∧ block.hasTag "export" = false ∧ block.hasTag "local" = false := by
  rcases h.fresh id block hblock with hold | hnew
  · exact absurd (Array.getElem?_eq_some_iff.1 hold).1 (Nat.not_lt.2 hid)
  · exact hnew.1

/-- A program that has grown is orderly. -/
theorem Orderly.grow (h : program.Orderly) (hgrows : program.Grows program') :
    program'.Orderly where
  source := hgrows.source ▸ h.source
  kind := hgrows.root ▸ h.kind
  unset := hgrows.root ▸ h.unset
  body := by
    obtain ⟨tokens, items, ids, hbody, hitems, hids⟩ := h.body
    refine ⟨tokens, items, ids, hgrows.root ▸ hbody, hitems, fun id hid => ?_⟩
    obtain ⟨block, hblock, hexport⟩ := hids id hid
    exact ⟨block, hgrows.blocks id block hblock, hexport⟩
  registered id hid := by
    obtain ⟨block, hblock⟩ := h.registered id (hgrows.registered ▸ hid)
    exact ⟨block, hgrows.blocks id block hblock⟩
  distinct := hgrows.registered ▸ h.distinct
  keys id block hblock tag htag key hkey := by
    rcases hgrows.fresh id block hblock with hold | ⟨-, hnew⟩
    · exact Nat.lt_of_lt_of_le (h.keys id block hold tag htag key hkey) hgrows.types.kept.size
    · exact hnew tag htag key hkey
  types := hgrows.types.closed h.types
  grounded := hgrows.types.grounded h.grounded
  docs := hgrows.root ▸ h.docs.mono hgrows.size

/-- Blocks that are told to whom they belong. -/
theorem getElem?_foldl_modify (owner : Option Nat) : ∀ (ids : List Nat) (blocks : Array Block)
    (id : Nat), (ids.foldl (fun blocks id => blocks.modify id fun block => { block with owner })
      blocks)[id]? = (blocks[id]?).map fun block => if id ∈ ids then { block with owner } else block
  | [], blocks, id => by
    simp
  | first :: rest, blocks, id => by
    rw [foldl_cons, getElem?_foldl_modify owner rest, Array.getElem?_modify]
    cases blocks[id]? with
    | none => simp
    | some block =>
      by_cases hfirst : first = id <;> by_cases hrest : id ∈ rest <;> simp_all [eq_comm]

theorem size_foldl_modify (owner : Option Nat) : ∀ (ids : List Nat) (blocks : Array Block),
    (ids.foldl (fun blocks id => blocks.modify id fun block => { block with owner })
      blocks).size = blocks.size
  | [], _ => rfl
  | _ :: rest, _ => by
    rw [foldl_cons, size_foldl_modify owner rest, Array.size_modify]

/-- Blocks may be put at the end of the body, if they have no `@export`. -/
theorem Orderly.appendBlocks (h : program.Orderly) {ids : List Nat}
    (hids : ∀ id ∈ ids, program.Unexported id) :
    (program.appendBlocks (ids.map .block)).Orderly := by
  obtain ⟨tokens, items, before, hbody, hitems, hbefore⟩ := h.body
  have hsome : (program.root.get? .body).isSome := Option.isSome_of_eq_some hbody
  have hold : (program.root.get .body).items?.getD [] = items ++ before.map .block := by
    rw [Node.get, hbody]
    rfl
  let body : Value := .list (items ++ before.map .block ++ ids.map .block)
  have hroot : { program with root := program.root.set .body body }.Orderly := by
    refine ⟨h.source, (kind_span_set ..).1.trans h.kind, ?_, ?_, h.registered, h.distinct, h.keys,
      h.types, h.grounded, h.docs.set hbody (forall_mem_map.2 fun _ _ => rfl)⟩
    · exact (get?_set_of_ne hsome (by decide)).trans h.unset
    · refine ⟨tokens, items, before ++ ids, ?_, hitems, forall_mem_append.2 ⟨hbefore, hids⟩⟩
      rw [map_append, ← append_assoc]
      exact get?_set_self hsome
  rw [Program.appendBlocks, hold]
  refine hroot.withBlocks ?_ fun id block block' hblock hblock' => ?_
  · exact size_foldl_modify (some program.root.id) _ program.blocks
  · rw [getElem?_foldl_modify, show program.blocks[id]? = some block from hblock] at hblock'
    cases hblock'
    split <;> exact List.Subset.refl _

/-! ## What queries find -/

/-- A block among the statements has no `@export`. -/
theorem Orderly.unexported (h : program.Orderly) (hid : .block id ∈ program.root.childValues) :
    program.Unexported id := by
  obtain ⟨tokens, items, ids, hbody, hitems, hids⟩ := h.body
  have hget : program.root.get .body = .list (items ++ ids.map .block) := by
    rw [Node.get, hbody]
    rfl
  rw [childValues_of_body h.kind hget, mem_append] at hid
  rcases hid with hid | hid
  · rcases hitems _ hid with hnull | ⟨node, hnode, -⟩
    · cases hnull
    · cases hnode
  · obtain ⟨other, hother, heq⟩ := mem_map.1 hid
    cases heq
    exact hids id hother

/-- Below the root of an orderly program stand its statements, with the blocks among them, and the
registered blocks. -/
theorem Orderly.exists_children (h : program.Orderly) :
    ∃ (statements : List Value) (ids : List Nat), program.view.children (.node program.root) =
        .ok (statements ++ ids.map .block ++ program.registered.map .block) ∧
    (∀ value ∈ statements, ∃ tokens node, value = .node node ∧ Placed tokens node) ∧
    ∀ value ∈ statements ++ ids.map .block, value ∈ program.root.childValues := by
  obtain ⟨source, hsource⟩ := h.source
  obtain ⟨tokens, items, ids, hbody, hitems, hids⟩ := h.body
  have hself : ∀ item ∈ items ++ ids.map .block, program.StandsFor item item := by
    refine forall_mem_append.2
      ⟨fun item hitem => ?_, forall_mem_map.2 fun _ _ => ⟨rfl, rfl⟩⟩
    refine standsFor_self ((hitems item hitem).imp_right ?_)
    rintro ⟨node, rfl, -⟩
    exact ⟨node, rfl⟩
  have hblocks : (ids.map Value.block).filter (fun value => !value.isNull) = ids.map .block :=
    filter_eq_self.2 (forall_mem_map.2 fun _ _ => rfl)
  have hget : program.root.get .body = .list (items ++ ids.map .block) := by
    rw [Node.get, hbody]
    rfl
  refine ⟨items.filter fun value => !value.isNull, ids, ?_, fun value hvalue => ?_, ?_⟩
  · rw [children_body hsource h.kind h.unset hbody hself, filter_append, hblocks]
  · obtain ⟨hmem, hnull⟩ := mem_filter.1 hvalue
    rcases hitems value hmem with rfl | ⟨node, rfl, hplaced⟩
    · cases hnull
    · exact ⟨tokens, node, rfl, hplaced⟩
  · rw [childValues_of_body h.kind hget]
    exact (filter_sublist.append_right _).subset

/-- An orderly program can be walked through. -/
theorem Orderly.viewable (h : program.Orderly) :
    program.Viewable fun id => ∃ block, program.block? id = some block := by
  obtain ⟨statements, ids, hchildren, hstatements, hvalues⟩ := h.exists_children
  refine ⟨h.kind, ⟨_, hchildren, fun child hchild => ?_⟩, fun children hsame node hnode => ?_,
    fun _ => id, h.keys, h.types⟩
  · rw [append_assoc, mem_append, mem_append] at hchild
    rcases hchild with hchild | hchild | hchild
    · exact .inl (hstatements child hchild)
    · obtain ⟨id, hid, rfl⟩ := mem_map.1 hchild
      obtain ⟨block, hblock, -⟩ := h.unexported (hvalues _ (mem_append_right _ hchild))
      exact .inr ⟨id, rfl, block, hblock⟩
    · obtain ⟨id, hid, rfl⟩ := mem_map.1 hchild
      exact .inr ⟨id, rfl, h.registered id hid⟩
  · cases hsame.symm.trans hchildren
    refine hvalues _ ((mem_append.1 hnode).resolve_right fun hmem => ?_)
    obtain ⟨_, _, heq⟩ := mem_map.1 hmem
    cases heq

/-- A query for blocks finds the registered ones, in their order, if it does not select the blocks
among the statements. -/
theorem Orderly.query_blocks (h : program.Orderly) {parts : List Selector} {q : Nat → Bool}
    (hread : Selector.read text.toList = .ok [.allOf (.kind "DocBlock" :: parts)])
    (hparts : ∀ id above, (∃ block, program.block? id = some block) →
      Selector.selectsAll program.view parts (.block id) above none = .ok (q id))
    (hbody : ∀ id, .block id ∈ program.root.childValues → q id = false) :
    program.query text = .ok ((program.registered.filter q).map .block) := by
  obtain ⟨statements, ids, hchildren, hstatements, hvalues⟩ := h.exists_children
  obtain ⟨children, hothers, hkinds⟩ := h.viewable.children
  have heq : children = statements ++ ids.map .block ++ program.registered.map .block :=
    Except.ok.inj (hothers.symm.trans hchildren)
  have hselect : ∀ child ∈ statements ++ ids.map .block ++ program.registered.map .block,
      ∀ levels walk, program.view.walkFrom (levels + 2) child [.node program.root] = .ok walk →
        (walk.filter fun entry => isBlockWith q entry.1).map Prod.fst =
          [child].filter (isBlockWith q) := by
    intro child hchild levels walk hwalk
    have hkind := hkinds child (heq ▸ hchild)
    rw [filter_walk (q := fun value _ => isBlockWith q value) h.viewable (fun _ _ => rfl)
      (fun _ _ => rfl) hkind hwalk, append_right_eq_self, filter_eq_nil_iff]
    rcases hkind with ⟨_, _, rfl, -⟩ | ⟨id, rfl, -⟩
    · exact forall_mem_nil _
    · exact forall_mem_map.2 fun _ _ => Bool.false_ne_true
  refine query_eq_ok h.viewable (q := fun value _ => isBlockWith q value) hread
    (fun value path hseen _ => Selector.selectsSome_singleton.trans
      (selects_block h.viewable hseen fun id hid => hparts id path hid)) rfl hchildren hselect ?_ ?_
  · have hnodes : statements.filter (isBlockWith q) = [] := by
      refine filter_eq_nil_iff.2 fun value hvalue => ?_
      obtain ⟨_, _, rfl, -⟩ := hstatements value hvalue
      exact Bool.false_ne_true
    have hblocks : (ids.map Value.block).filter (isBlockWith q) = [] := by
      refine filter_eq_nil_iff.2 (forall_mem_map.2 fun id hid => ?_)
      rw [isBlockWith, hbody id (hvalues _ (mem_append_right _ (mem_map_of_mem hid)))]
      exact Bool.false_ne_true
    rw [← filter_flatMap, flatMap_singleton', filter_append, filter_append,
      hnodes, hblocks, filter_map]
    rfl
  · rw [pairwise_map]
    refine (h.distinct.filter _).imp fun {first second} hne => ?_
    exact beq_eq_false_iff_ne.2 (Ne.symm hne)

/-- Is the block one with `@export`? -/
theorem hasTagWith_export (id : Nat) : program.hasTagWith (.equals "export") id =
    (program.block? id).any (·.hasTag "export") := by
  rw [hasTagWith]
  cases program.block? id <;> rfl

/-- The query for blocks with `@export` gives the registered ones, in their order. -/
theorem Orderly.query_exports (h : program.Orderly) :
    program.query Pass.exportBlocks = .ok (program.exports.map .block) := by
  have hquery := h.query_blocks (q := program.hasTagWith (.equals "export"))
    Selector.read_exportBlocks
    (fun id above hid => selectsAll_havingTag h.viewable _ hid above none)
    fun id hid => by
      obtain ⟨block, hblock, hexport⟩ := h.unexported hid
      rw [hasTagWith_export, hblock, Option.any_some, hexport]
  rw [hquery, exports, filter_congr fun id _ => hasTagWith_export id]

/-! ## Programs in which typedefs are inlined -/

/-- Inlining the local typedefs of a program that was read leads through sound programs only,
whether it succeeds or not. The log that it keeps leads by single steps from the program that was
read to the one that the pass ends with, and changes nothing else of the pass. -/
theorem inlineTypedefs_sound {text : List Char} (h : Program.read text = .ok program)
    (calls : List HookCall) : ∃ result log calls',
      (Pass.inlineTypedefs : Pass (Logged Program) Nat).run.run ⟨⟨program, []⟩, calls⟩ =
        (result, ⟨log, calls'⟩) ∧
      (Pass.inlineTypedefs : Pass Program Nat).run.run ⟨program, calls⟩ =
        (result, ⟨log.program, calls'⟩) ∧
      log.Follows Inlining program ∧ ∀ state ∈ log.states, state.Sound := by
  have horderly := orderly_of_read h
  obtain ⟨result, log, calls', hrun, hplain, hlogs⟩ :=
    exists_log_inlineTypedefs steady_orderly horderly calls
  refine ⟨result, log, calls', hrun, hplain, hlogs.imp fun _ _ => And.left, fun state hstate => ?_⟩
  have hstate := hlogs.all_good horderly state hstate
  exact hstate.viewable.sound hstate.grounded

/-- Two local typedefs that refer to each other, and a reference: the second one is found to be
recursive after the first was inlined. -/
def entangledTypedefs : List Char :=
  ("/** @local\n@typedef \x7bB[]\x7d A */\n/** @local\n@typedef \x7bA | C\x7d B */\n" ++
    "/** @type \x7bA\x7d */ x;").toList

theorem inlineTypedefs_sound_entangled : ∃ program, Program.read entangledTypedefs = .ok program ∧
    ∃ result log calls',
      (Pass.inlineTypedefs : Pass (Logged Program) Nat).run.run ⟨⟨program, []⟩, []⟩ =
        (result, ⟨log, calls'⟩) ∧ result.toOption = none ∧ log.past.length = 3 ∧
      (Pass.inlineTypedefs : Pass Program Nat).run.run ⟨program, []⟩ =
        (result, ⟨log.program, calls'⟩) ∧
      log.Follows Inlining program ∧ ∀ state ∈ log.states, state.Sound := by
  have hok : ((Program.read entangledTypedefs).toOption.any fun program =>
      let outcome := (Pass.inlineTypedefs : Pass (Logged Program) Nat).run.run ⟨⟨program, []⟩, []⟩
      outcome.1.toOption == none && outcome.2.program.past.length == 3) = true := by
    decide +kernel
  obtain ⟨program, hread, houtcome⟩ := exists_eq_ok_of_any hok
  obtain ⟨result, log, calls', hrun, hplain, hfollows, hsound⟩ := inlineTypedefs_sound hread []
  rw [hrun, Bool.and_eq_true, beq_iff_eq, beq_iff_eq] at houtcome
  exact ⟨program, hread, result, log, calls', hrun, houtcome.1, houtcome.2, hplain, hfollows,
    hsound⟩

end Program

end DocTypes
