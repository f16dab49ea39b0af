import DocTypes.Proofs.Draft.Shows

/-!
# The draft of a program

A program and its draft say the same: whatever a thing of the program has under a name, what stands
for it in the draft has it too, and beyond that operations only (`Draft.get?_ofProgram`).

Loading puts records under the numbers of nodes and blocks (`Program.Owes`), and all else behind
these numbers. So what was put there stays (`Draft.Extends`), and a node that stands in two places
has in the end one record, whichever of them was loaded last.
-/

namespace DocTypes

open List

namespace Program

variable (program : Program)

/-- What has to stand under a number. -/
inductive Owes : Nat → RecordSort → List (String × Value) → Prop
  | node {node : Node} : (Value.node node).Within (.node program.root) →
    Owes node.id .node (program.attributesOf node)
  | block {id : Nat} {block : Block} : program.block? id = some block →
    Owes (program.nextNode + id) .block (program.blockAttributes block)

variable {program}

theorem Owes.lt_size (h : program.Consistent) {ref : Nat} {sort : RecordSort}
    {attributes : List (String × Value)} (howes : program.Owes ref sort attributes) :
    ref < program.size := by
  cases howes with
  | node hnode => exact Nat.lt_of_lt_of_le (h.below _ hnode) (Nat.le_add_right _ _)
  | block hblock =>
    obtain ⟨hid, -⟩ := Array.getElem?_eq_some_iff.1 hblock
    exact Nat.add_lt_add_left hid _

/-- What has to stand under a number is one thing. -/
theorem Owes.unique (h : program.Consistent) {ref : Nat} {sort sort' : RecordSort}
    {attributes attributes' : List (String × Value)} (howes : program.Owes ref sort attributes)
    (howes' : program.Owes ref sort' attributes') : sort = sort' ∧ attributes = attributes' := by
  generalize href : ref = ref' at howes'
  cases howes with
  | @node node hnode =>
    have hbelow := h.below _ hnode
    cases howes' with
    | node hnode' => exact ⟨rfl, congrArg _ (h.once _ _ hnode hnode' href)⟩
    | block => omega
  | block hblock =>
    cases howes' with
    | node hnode' =>
      have hbelow := h.below _ hnode'
      omega
    | block hblock' =>
      obtain rfl := Nat.add_left_cancel href
      cases hblock.symm.trans hblock'
      exact ⟨rfl, rfl⟩

end Program

namespace Draft

variable {draft draft' : Draft} {program : Program}

/-! ## Loading -/

/-- What was loaded is still there. -/
structure Extends (program : Program) (draft draft' : Draft) : Prop where
  size : draft.things.size ≤ draft'.things.size
  keeps : Keeps program draft draft'
  records : ∀ ref sort attributes, program.Owes ref sort attributes →
    draft.Records program ref sort attributes → draft'.Records program ref sort attributes

theorem Extends.refl (draft : Draft) : Extends program draft draft :=
  ⟨Nat.le_refl _, fun _ _ _ => id, fun _ _ _ _ => id⟩

theorem Extends.trans {later : Draft} (h : Extends program draft draft')
    (hlater : Extends program draft' later) : Extends program draft later :=
  ⟨Nat.le_trans h.size hlater.size,
    fun ref thing hsize hthing => hlater.keeps ref thing hsize (h.keeps ref thing hsize hthing),
    fun ref sort attributes howes hrecords =>
      hlater.records ref sort attributes howes (h.records ref sort attributes howes hrecords)⟩

/-- What an action does to a draft that has room for all nodes and blocks: what was loaded stays,
and `post` holds of the new draft and of what the action gives. -/
def Loads {α : Type} (program : Program) (draft : Draft) (action : StateM Draft α)
    (post : Draft → α → Prop) : Prop :=
  program.size ≤ draft.things.size →
    Extends program draft (action draft).2 ∧ post (action draft).2 (action draft).1

section
variable {α β : Type} {P : Draft → α → Prop} {Q : Draft → β → Prop}

theorem loads_pure {value : α} (h : P draft value) : Loads program draft (pure value) P :=
  fun _ => ⟨.refl draft, h⟩

theorem Loads.bind {action : StateM Draft α} {next : α → StateM Draft β}
    (h : Loads program draft action P)
    (hnext : ∀ draft' value, Extends program draft draft' → P draft' value →
      Loads program draft' (next value) Q) : Loads program draft (action >>= next) Q := by
  intro hsize
  obtain ⟨hextends, hpost⟩ := h hsize
  obtain ⟨hextends', hpost'⟩ :=
    hnext _ _ hextends hpost (Nat.le_trans hsize hextends.size)
  exact ⟨hextends.trans hextends', hpost'⟩

theorem Loads.mono {P' : Draft → α → Prop} {action : StateM Draft α}
    (h : Loads program draft action P)
    (hpost : ∀ draft' value, Extends program draft draft' → P draft' value → P' draft' value) :
    Loads program draft action P' := by
  intro hsize
  obtain ⟨hextends, hvalue⟩ := h hsize
  exact ⟨hextends, hpost _ _ hextends hvalue⟩

/-- What is loaded one after the other. -/
theorem loads_mapM {R : Draft → α → β → Prop} {action : α → StateM Draft β}
    (hR : ∀ draft draft' item result, Extends program draft draft' → R draft item result →
      R draft' item result)
    {items : List α} (h : ∀ item ∈ items, ∀ draft, Loads program draft (action item) (R · item)) :
    ∀ draft, Loads program draft (items.mapM action) fun draft' results =>
      Forall₂ (R draft') items results := by
  induction items with
  | nil => exact fun draft => loads_pure .nil
  | cons item rest ih =>
    intro draft
    rw [mapM_cons]
    refine (h item (.head _) draft).bind fun draft' first _ hfirst => ?_
    refine (ih (fun item hitem => h item (.tail _ hitem)) draft').bind
      fun later results hextends hresults => ?_
    exact loads_pure (.cons (hR _ _ _ _ hextends hfirst) hresults)

end

/-- A new thing. -/
theorem loads_adding (thing : Thing) : Loads program draft (adding thing) fun draft' datum =>
    draft'.Holds program datum thing := by
  intro hsize
  have hkeeps : Keeps program draft (add thing draft).2 := by
    intro ref other _ hother
    obtain ⟨hlt, -⟩ := Array.getElem?_eq_some_iff.1 hother
    change (draft.things.push thing)[ref]? = some other
    rw [Array.getElem?_push, if_neg (Nat.ne_of_lt hlt), hother]
  refine ⟨⟨?_, hkeeps, ?_⟩, draft.things.size, rfl, hsize, Array.getElem?_push_size⟩
  · change draft.things.size ≤ (draft.things.push thing).size
    rw [Array.size_push]
    exact Nat.le_succ _
  · rintro ref sort attributes - ⟨data, hdata, hstand⟩
    obtain ⟨hlt, -⟩ := Array.getElem?_eq_some_iff.1 hdata
    refine ⟨data, ?_, hstand.mono hkeeps (ShowsThing.mono hkeeps)⟩
    change (draft.things.push thing)[ref]? = _
    rw [Array.getElem?_push, if_neg (Nat.ne_of_lt hlt), hdata]

/-- What has to stand under a number is put there. -/
theorem loads_put (h : program.Consistent) {ref : Nat} {sort : RecordSort}
    {attributes : List (String × Value)} {data : List (String × Datum)}
    (howes : program.Owes ref sort attributes)
    (hstand : draft.StandFor program (draft.ShowsThing program) attributes data) :
    Loads program draft (modify (put ref (.record sort data))) fun draft' _ =>
      draft'.Records program ref sort attributes := by
  intro hsize
  have hlt := Nat.lt_of_lt_of_le (howes.lt_size h) hsize
  have hself : (put ref (.record sort data) draft).things[ref]? = some (.record sort data) :=
    Array.getElem?_setIfInBounds_self_of_lt hlt
  have hother : ∀ other, ref ≠ other →
      (put ref (.record sort data) draft).things[other]? = draft.things[other]? :=
    fun other hne => Array.getElem?_setIfInBounds_ne hne
  have hkeeps : Keeps program draft (put ref (.record sort data) draft) :=
    fun other thing hle hthing =>
      (hother other (Nat.ne_of_lt (Nat.lt_of_lt_of_le (howes.lt_size h) hle))).trans hthing
  have hrecords : (put ref (.record sort data) draft).Records program ref sort attributes :=
    ⟨data, hself, hstand.mono hkeeps (ShowsThing.mono hkeeps)⟩
  refine ⟨⟨Nat.le_of_eq (Array.size_setIfInBounds).symm, hkeeps, ?_⟩, hrecords⟩
  rintro other sort' attributes' howes' ⟨data', hdata', hstand'⟩
  by_cases hne : ref = other
  · subst hne
    obtain ⟨rfl, rfl⟩ := howes.unique h howes'
    exact hrecords
  · exact ⟨data', (hother other hne).trans hdata', hstand'.mono hkeeps (ShowsThing.mono hkeeps)⟩

/-- Can the value be loaded? -/
def Loadable (program : Program) (value : Value) : Prop :=
  ∀ inner : Value, inner.Within value → inner.isOfTree ∧
    ∀ node, inner = .node node → inner.Within (.node program.root)

/-- The nodes in a value are in the draft. -/
def HasNodes (draft : Draft) (program : Program) (value : Value) : Prop :=
  ∀ node, (Value.node node).Within value →
    draft.Records program node.id .node (program.attributesOf node)

theorem HasNodes.mono {value : Value} (hvalue : Loadable program value)
    (h : Extends program draft draft') (hnodes : draft.HasNodes program value) :
    draft'.HasNodes program value := fun node hnode =>
  h.records _ _ _ (.node ((hvalue _ hnode).2 node rfl)) (hnodes node hnode)

/-- A node that is known by its number. -/
theorem shows_nodeValue (draft : Draft) {number : Option Nat}
    (h : ∀ id ∈ number, (program.node? id).isSome) :
    draft.Shows program (program.nodeValue number) (.thing? number) := by
  cases number with
  | none => rfl
  | some id =>
    obtain ⟨node, hfound⟩ := Option.isSome_iff_exists.1 (h id rfl)
    change draft.Shows program (.ofNode? (program.node? id)) (.thing id)
    rw [hfound]
    rw [Program.node?, Node.find?] at hfound
    have hid := find?_some hfound
    exact congrArg Datum.thing (beq_iff_eq.1 hid).symm

/-- The attributes of a node, if those of its fields are known. -/
theorem standFor_node (h : program.Consistent) {kind : Kind} {id : Nat} {span : Option Span}
    {parent doc : Option Nat} {fields : List (Field × Value)}
    (hnode : (Value.node (.mk kind id span parent doc fields)).Within (.node program.root))
    {data : List (String × Datum)} (hdata : draft.StandFor program (draft.ShowsThing program)
      (fields.map fun pair => (pair.1.text, pair.2)) data) :
    draft.StandFor program (draft.ShowsThing program)
      (program.attributesOf (.mk kind id span parent doc fields))
      (nodeAttributes kind.text (.nat? (span.map Span.start)) (.nat? (span.map Span.stop))
        (.thing? parent) (.thing? (doc.map (program.nextNode + ·))) data) := by
  have hplace : ∀ place : Option Nat, draft.Shows program (.key? place) (.nat? place)
    | none => rfl
    | some _ => rfl
  have hdoc : draft.Shows program ((doc.map Value.block).getD .null)
      (.thing? (doc.map (program.nextNode + ·))) := by
    cases doc <;> rfl
  have hparent : draft.Shows program (program.nodeValue parent) (.thing? parent) :=
    shows_nodeValue draft (h.parents _ hnode)
  exact .cons ⟨rfl, rfl⟩ (.cons ⟨rfl, hplace _⟩ (.cons ⟨rfl, hplace _⟩ (.cons ⟨rfl, hparent⟩
    (.cons ⟨rfl, hdoc⟩ hdata))))

mutual

theorem loads_node (h : program.Consistent) : ∀ node, Loadable program (.node node) → ∀ draft,
    Loads program draft (loadNode program.nextNode node) fun draft' _ =>
      draft'.HasNodes program (.node node)
  | .mk kind id span parent doc fields, hnode, draft => by
    have hfields : ∀ pair ∈ fields, Loadable program pair.2 := fun pair hpair inner hinner =>
      hnode inner (@Value.Within.field inner (.mk kind id span parent doc fields) pair hpair hinner)
    have hwithin := (hnode _ .self).2 _ rfl
    rw [loadNode]
    refine (loads_fields h fields hfields draft).bind fun draft' data _ hdata => ?_
    refine (loads_put h (.node hwithin) (standFor_node h hwithin (hdata.1 _))).mono
      fun draft'' _ hextends hrecords => ?_
    intro node hinner
    cases hinner with
    | self => exact hrecords
    | field hpair hinner => exact (hdata.2 _ hpair).mono (hfields _ hpair) hextends node hinner

theorem loads_fields (h : program.Consistent) : ∀ fields : List (Field × Value),
    (∀ pair ∈ fields, Loadable program pair.2) → ∀ draft,
      Loads program draft (loadFields program.nextNode fields) fun draft' data =>
        (∀ leaf, draft'.StandFor program leaf (fields.map fun pair => (pair.1.text, pair.2)) data) ∧
        ∀ pair ∈ fields, draft'.HasNodes program pair.2
  | [], _, draft => loads_pure ⟨fun _ => .nil, forall_mem_nil _⟩
  | (field, value) :: rest, hfields, draft => by
    rw [loadFields]
    refine (loads_value h value (hfields _ (.head _)) draft).bind fun draft' datum _ hdatum => ?_
    refine (loads_fields h rest (fun pair hpair => hfields pair (.tail _ hpair)) draft').bind
      fun later data hextends hdata => loads_pure ⟨fun leaf => ?_,
        forall_mem_cons.2 ⟨hdatum.2.mono (hfields _ (.head _)) hextends, hdata.2⟩⟩
    exact .cons ⟨rfl, (hdatum.1 leaf).mono hextends.keeps fun _ _ => id⟩ (hdata.1 leaf)

theorem loads_value (h : program.Consistent) : ∀ value, Loadable program value → ∀ draft,
    Loads program draft (load program.nextNode value) fun draft' datum =>
      (∀ leaf, draft'.Stands program leaf value datum) ∧ draft'.HasNodes program value
  | .node node, hvalue, draft => by
    rw [load]
    exact (loads_node h node hvalue draft).bind fun _ _ _ hnodes =>
      loads_pure ⟨fun _ => rfl, hnodes⟩
  | .list items, hvalue, draft => by
    have hitems : ∀ item ∈ items, Loadable program item := fun item hitem inner hinner =>
      hvalue inner (.item hitem hinner)
    rw [load]
    refine (loads_items h items hitems draft).bind fun draft' data _ hdata => ?_
    refine (loads_adding _).mono fun later datum hextends hholds => ⟨fun leaf => ?_, ?_⟩
    · exact ⟨data, hholds, standsAll_mono hextends.keeps (fun _ _ => id) (hdata.1 leaf)⟩
    · intro node hnode
      cases hnode with
      | item hitem hinner => exact (hdata.2 _ hitem).mono (hitems _ hitem) hextends node hinner
  | .regex pattern flags, hvalue, draft =>
    (loads_adding _).mono fun _ _ _ hholds => ⟨fun _ => hholds, fun _ hnode => by cases hnode⟩
  | .block id, _, draft | .bool value, _, draft | .text value, _, draft
  | .decoded points, _, draft | .number value, _, draft | .null, _, draft =>
    loads_pure ⟨fun _ => rfl, fun _ hnode => by cases hnode⟩
  | .tag _, hvalue, _ | .type _, hvalue, _ | .types, hvalue, _ | .foreign _ _, hvalue, _ =>
    absurd (hvalue _ .self).1 Bool.false_ne_true

theorem loads_items (h : program.Consistent) : ∀ items : List Value,
    (∀ item ∈ items, Loadable program item) → ∀ draft,
      Loads program draft (loadItems program.nextNode items) fun draft' data =>
        (∀ leaf, draft'.standsAll program leaf items data) ∧
        ∀ item ∈ items, draft'.HasNodes program item
  | [], _, draft => loads_pure ⟨fun _ => rfl, forall_mem_nil _⟩
  | value :: rest, hitems, draft => by
    rw [loadItems]
    refine (loads_value h value (hitems _ (.head _)) draft).bind fun draft' datum _ hdatum => ?_
    refine (loads_items h rest (fun item hitem => hitems item (.tail _ hitem)) draft').bind
      fun later data hextends hdata => loads_pure ⟨fun leaf => ?_,
        forall_mem_cons.2 ⟨hdatum.2.mono (hitems _ (.head _)) hextends, hdata.2⟩⟩
    exact ⟨datum, data, rfl, (hdatum.1 leaf).mono hextends.keeps fun _ _ => id, hdata.1 leaf⟩

end

/-- Is the value data, or a list of data? -/
def isData : Value → Bool
  | .null | .bool _ | .text _ | .number _ | .block _ => true
  | .list items => items.all fun
    | .text _ | .number _ => true
    | _ => false
  | _ => false

theorem loadable_of_isData {value : Value} (h : isData value) : Loadable program value := by
  intro inner hinner
  cases hinner with
  | self =>
    cases value with
    | null | bool | text | number | block | list => exact ⟨rfl, nofun⟩
    | _ => cases h
  | @item item _ hitem hinner =>
    have hdata := all_eq_true.1 h item hitem
    cases item with
    | text | number =>
      cases hinner
      exact ⟨rfl, nofun⟩
    | _ => cases hdata
  | field => cases h

/-- Attributes that are data. -/
theorem loads_attributes (h : program.Consistent) {attributes : List (String × Value)}
    (hdata : attributes.all fun pair => isData pair.2) (draft : Draft) :
    Loads program draft (loadAttributes program.nextNode attributes) fun draft' data =>
      ∀ leaf, draft'.StandFor program leaf attributes data := by
  let R (draft : Draft) (named : String × Value) (pair : String × Datum) : Prop :=
    ∀ leaf, named.1 = pair.1 ∧ draft.Stands program leaf named.2 pair.2
  have hkept : ∀ draft draft' named pair, Extends program draft draft' → R draft named pair →
      R draft' named pair := fun _ _ _ _ hextends hstands leaf =>
    ⟨(hstands leaf).1, (hstands leaf).2.mono hextends.keeps fun _ _ => id⟩
  refine (loads_mapM hkept (fun (name, value) hpair draft => ?_) draft).mono
    fun _ _ _ hall leaf => hall.imp fun _ _ hstands => hstands leaf
  exact (loads_value h value (loadable_of_isData (all_eq_true.1 hdata _ hpair)) draft).bind
    fun _ _ _ hdatum => loads_pure fun leaf => ⟨rfl, hdatum.1 leaf⟩

/-- Records of attributes that are data. -/
theorem loads_records (h : program.Consistent) {α : Type} (sortOf : α → RecordSort)
    {attributesOf : α → List (String × Value)}
    (hdata : ∀ item, (attributesOf item).all fun pair => isData pair.2) (items : List α)
    (draft : Draft) : Loads program draft
      (items.mapM fun item => do
        adding (.record (sortOf item) (← loadAttributes program.nextNode (attributesOf item))))
      fun draft' data => Forall₂
        (fun item => draft'.IsRecord program (sortOf item) (attributesOf item)) items data := by
  refine loads_mapM (R := fun draft item => draft.IsRecord program (sortOf item)
    (attributesOf item)) (fun _ _ _ _ hextends => IsRecord.mono hextends.keeps)
    (fun item _ draft => ?_) draft
  refine (loads_attributes h (hdata item) draft).bind fun _ _ _ hstand => ?_
  exact (loads_adding _).mono fun _ _ hextends hholds =>
    ⟨_, hholds, (hstand _).mono hextends.keeps fun _ _ => id⟩

theorem isData_key? (key : Option Nat) : isData (.key? key) := by
  cases key <;> rfl

theorem isData_keys (keys : List Nat) : isData (.keys keys) := by
  rw [Value.keys, isData, all_map]
  exact all_eq_true.2 fun _ _ => rfl

theorem isData_lines (lines : List String) : isData (.lines lines) := by
  rw [Value.lines, isData, all_map]
  exact all_eq_true.2 fun _ _ => rfl

theorem isData_tag (tag : Tag) : tag.attributes.all fun pair => isData pair.2 := by
  have hdefault : isData ((tag.defaultText.map Value.text).getD .null) := by
    cases tag.defaultText <;> rfl
  have howner : isData ((tag.owner.map Value.block).getD .null) := by
    cases tag.owner <;> rfl
  simp only [Tag.attributes, all_cons, isData_key?, isData_lines, hdefault, howner]
  rfl

theorem isData_type (node : TypeNode) : node.attributes.all fun pair => isData pair.2 := by
  obtain ⟨key, shape⟩ := node
  cases shape <;> simp only [TypeNode.attributes, TypeShape.attributes, all_cons, isData_key?,
    isData_keys] <;> rfl

theorem isData_block (block : Block) :
    (block.attributes.filter fun pair => pair.1 != "tags").all fun pair => isData pair.2 := by
  rw [all_filter]
  simp only [Block.attributes, all_cons, isData_key?, isData_lines]
  rfl

/-- A block is put under its number. -/
theorem loads_block (h : program.Consistent) {id : Nat} {block : Block}
    (hblock : program.block? id = some block) (draft : Draft) :
    Loads program draft (loadBlock program.nextNode id block) fun draft' _ =>
      draft'.Records program (program.nextNode + id) .block (program.blockAttributes block) := by
  have htags := loads_records h (fun _ => .tag) isData_tag block.tags draft
  refine htags.bind fun draft₁ data _ hdata => (loads_adding _).bind fun draft₂ tags h₁ htags => ?_
  refine (loads_attributes h (isData_block block) draft₂).bind fun draft₃ _ h₂ hstand => ?_
  have hdata₃ : draft₃.standsAll program (draft₃.ShowsThing program) (block.tags.map .tag) data :=
    standsAll_iff.2 (forall₂_map_left_iff.2
      (hdata.imp fun _ _ hrecord => hrecord.mono (h₁.trans h₂).keeps))
  have howner := shows_nodeValue draft₃ (h.owners id block hblock)
  exact loads_put h (.block hblock) (rel_append (hstand _)
    (.cons ⟨rfl, data, htags.mono h₂.keeps, hdata₃⟩ (.cons ⟨rfl, howner⟩ .nil)))

/-- A list of blocks. -/
theorem loads_numbers (ids : List Nat) : Loads program draft (loadNumbers program.nextNode ids)
    fun draft' => draft'.Shows program (.list (ids.map .block)) :=
  (loads_adding _).mono fun _ _ _ hholds => ⟨_, hholds, standsAll_iff.2
    (forall₂_map_left_iff.2 (forall₂_map_right_iff.2 (forall₂_same.2 fun _ _ => rfl)))⟩

/-- The comments. -/
theorem loads_comments (draft : Draft) : Loads program draft (loadComments program.comments)
    fun draft' => draft'.Shows program
      (.list ((range program.comments.length).map fun id => .foreign id none)) := by
  refine (loads_mapM (R := fun draft comment datum =>
    draft.Holds program datum (.record .comment comment.attributes))
    (fun _ _ _ _ hextends => Holds.mono hextends.keeps) (fun _ _ _ => loads_adding _) draft).bind
    fun draft' data _ hdata => (loads_adding _).mono fun later _ hextends hholds => ?_
  obtain ⟨hlength, hget⟩ := forall₂_iff_get.1 hdata
  refine ⟨data, hholds, standsAll_iff.2 (forall₂_map_left_iff.2 (forall₂_iff_get.2
    ⟨length_range.trans hlength, fun i hi hi' => ?_⟩))⟩
  have hcomment : i < program.comments.length := hlength ▸ hi'
  refine ⟨program.comments[i], ?_, (hget i hcomment hi').mono hextends.keeps⟩
  rw [get_eq_getElem, getElem_range, getElem?_eq_getElem]

/-- The arena. -/
theorem loads_arena (h : program.Consistent) (draft : Draft) :
    Loads program draft (loadArena program.nextNode program.types) fun draft' =>
      draft'.Shows program .types := by
  refine (loads_records h _ isData_type _ draft).bind fun draft₁ data _ hdata => ?_
  refine (loads_adding _).bind fun draft₂ slots h₂ hslots => ?_
  refine (loads_adding _).bind fun draft₃ replaced h₃ hreplaced => ?_
  refine (loads_adding _).mono fun draft₄ types h₄ htypes => ?_
  exact ⟨slots, replaced, data, htypes, hslots.mono (h₃.trans h₄).keeps,
    hdata.imp fun _ _ hrecord => hrecord.mono (h₂.trans (h₃.trans h₄)).keeps,
    hreplaced.mono h₄.keeps⟩

/-- All blocks. -/
theorem loads_blocks (h : program.Consistent) {blocks : List (Block × Nat)}
    (hblocks : ∀ pair ∈ blocks, program.block? pair.2 = some pair.1) (draft : Draft) :
    Loads program draft
      (blocks.forM fun (block, id) => loadBlock program.nextNode id block) fun draft' _ =>
      ∀ pair ∈ blocks, draft'.Records program (program.nextNode + pair.2) .block
        (program.blockAttributes pair.1) := by
  induction blocks generalizing draft with
  | nil => exact loads_pure (forall_mem_nil _)
  | cons pair rest ih =>
    obtain ⟨hfirst, hrest⟩ := forall_mem_cons.1 hblocks
    refine (loads_block h hfirst draft).bind fun draft' _ _ hrecords => ?_
    exact (ih hrest draft').mono fun _ _ hextends hlater =>
      forall_mem_cons.2 ⟨hextends.records _ _ _ (.block hfirst) hrecords, hlater⟩

/-- Everything that has to stand under a number stands there, and the attributes of the root are
found. -/
theorem loads_parts (h : program.Consistent) (draft : Draft) :
    Loads program draft (loadParts program) fun draft' parts =>
      (∀ ref sort attributes, program.Owes ref sort attributes →
        draft'.Records program ref sort attributes) ∧
      draft'.StandFor program (draft'.ShowsThing program) program.rootAttributes parts.2 := by
  have hroot : Loadable program (.node program.root) := fun inner hinner =>
    ⟨h.plain inner hinner, fun _ _ => hinner⟩
  have hmem : ∀ id block, (block, id) ∈ program.blocks.toList.zipIdx ↔
      program.block? id = some block := fun id block =>
    mk_mem_zipIdx_iff_getElem?.trans (by rw [Array.getElem?_toList]; rfl)
  obtain ⟨source, hsource⟩ := Option.isSome_iff_exists.1 h.source
  refine (loads_node h program.root hroot draft).bind fun draft₁ _ _ hnodes => ?_
  refine (loads_blocks h (fun pair hpair => (hmem _ _).1 hpair) draft₁).bind
    fun draft₂ _ h₂ hrecords => ?_
  refine (loads_numbers program.registered).bind fun draft₃ registered h₃ hregistered => ?_
  refine (loads_numbers program.sourceBlocks).bind fun draft₄ sourceBlocks h₄ hsourceBlocks => ?_
  refine (loads_comments draft₄).bind fun draft₅ comments h₅ hcomments => ?_
  refine (loads_arena h draft₅).bind fun draft₆ types h₆ htypes => loads_pure ⟨?_, ?_⟩
  · have hlater := h₃.trans (h₄.trans (h₅.trans h₆))
    intro ref sort attributes howes
    cases howes with
    | node hnode => exact (h₂.trans hlater).records _ _ _ (.node hnode) (hnodes _ hnode)
    | block hblock => exact hlater.records _ _ _ (.block hblock) (hrecords _ ((hmem _ _).2 hblock))
  · rw [Program.rootAttributes, hsource]
    exact .cons ⟨rfl, rfl⟩ (.cons ⟨rfl, hregistered.mono (h₄.trans (h₅.trans h₆)).keeps⟩
      (.cons ⟨rfl, hsourceBlocks.mono (h₅.trans h₆).keeps⟩
        (.cons ⟨rfl, hcomments.mono h₆.keeps⟩ (.cons ⟨rfl, htypes⟩ .nil))))

/-! ## Attributes -/

/-- What stands for attributes has them under their names. -/
theorem StandFor.lookup {leaf : Value → Datum → Prop} {attributes : List (String × Value)}
    {data : List (String × Datum)} (h : draft.StandFor program leaf attributes data)
    (name : String) : Option.Rel (draft.Stands program leaf) (attributes.lookup name)
      (data.lookup name) := by
  induction h with
  | nil => exact .none
  | @cons named pair _ _ hpair _ ih =>
    rw [lookup_cons, lookup_cons, hpair.1]
    cases name == pair.1 with
    | true => exact .some hpair.2
    | false => exact ih

theorem extend_record {ref : Nat} {sort : RecordSort} {old attributes : List (String × Datum)}
    (h : draft.things[ref]? = some (.record sort old)) :
    draft.extend ref attributes = draft.put ref (.record sort (old ++ attributes)) := by
  rw [extend, h]

/-- What stands under a number in the draft of a program. -/
theorem records_ofProgram (h : program.Consistent) {ref : Nat} {sort : RecordSort}
    {attributes : List (String × Value)} (howes : program.Owes ref sort attributes) :
    (ofProgram program).Records program ref sort
      (attributes ++ if ref == program.root.id then program.rootAttributes else []) := by
  let start : Draft := { things := Array.replicate program.size (.list []) }
  have hsize : program.size ≤ start.things.size := Nat.le_of_eq Array.size_replicate.symm
  obtain ⟨-, hrecords, hattributes⟩ := loads_parts h start hsize
  have hroot : program.Owes program.root.id .node (program.attributesOf program.root) := .node .self
  obtain ⟨data, hdata, hstand⟩ := hrecords _ _ _ hroot
  have hthings : (ofProgram program).things = ((loadParts program start).2.put program.root.id
      (.record .node (data ++ (loadParts program start).1.2))).things := by
    rw [← extend_record hdata]
    rfl
  have hself : (ofProgram program).things[program.root.id]? =
      some (.record .node (data ++ (loadParts program start).1.2)) := by
    rw [hthings]
    exact Array.getElem?_setIfInBounds_self_of_lt (Array.getElem?_eq_some_iff.1 hdata).1
  have hother : ∀ other, program.root.id ≠ other →
      (ofProgram program).things[other]? = (loadParts program start).2.things[other]? := by
    intro other hne
    rw [hthings]
    exact Array.getElem?_setIfInBounds_ne hne
  have hkeeps : Keeps program (loadParts program start).2 (ofProgram program) :=
    fun other thing hle hthing =>
      (hother other (Nat.ne_of_lt (Nat.lt_of_lt_of_le (hroot.lt_size h) hle))).trans hthing
  by_cases hne : program.root.id = ref
  · subst hne
    obtain ⟨rfl, rfl⟩ := howes.unique h hroot
    rw [beq_self_eq_true, if_pos rfl]
    exact ⟨_, hself, rel_append (hstand.mono hkeeps (ShowsThing.mono hkeeps))
      (hattributes.mono hkeeps (ShowsThing.mono hkeeps))⟩
  · obtain ⟨data', hdata', hstand'⟩ := hrecords _ _ _ howes
    rw [beq_eq_false_iff_ne.2 (Ne.symm hne), if_neg Bool.false_ne_true, append_nil]
    exact ⟨data', (hother ref hne).trans hdata', hstand'.mono hkeeps (ShowsThing.mono hkeeps)⟩

end Draft

namespace Program

/-- Is the value a thing of the program that has attributes? -/
def Has (program : Program) : Value → Prop
  | .node node => (Value.node node).Within (.node program.root)
  | .block id => (program.block? id).isSome
  | .tag _ | .type _ => True
  | _ => False

end Program

namespace Draft

variable {program : Program}

/-- What a thing of the program has under a name, the thing that stands for it in the draft of the
program has, and beyond that it has operations only. -/
theorem get?_ofProgram (h : program.Consistent) {value : Value} {datum : Datum}
    (hvalue : program.Has value) (hshows : (ofProgram program).Shows program value datum)
    (name : String) :
    (∀ found, program.attribute? value name = some found → ∃ datum',
      (ofProgram program).get? datum name = some datum' ∧
        (ofProgram program).Shows program found datum') ∧
    (program.attribute? value name = none → ∀ datum',
      (ofProgram program).get? datum name = some datum' → datum' = .operation) := by
  obtain ⟨ref, sort, data, rfl, hthing, hrel⟩ : ∃ ref sort data, datum = .thing ref ∧
      (ofProgram program).things[ref]? = some (.record sort data) ∧
      Option.Rel ((ofProgram program).Shows program) (program.attribute? value name)
        (data.lookup name) := by
    cases value with
    | node node =>
      obtain ⟨data, hthing, hstand⟩ := records_ofProgram h (.node hvalue)
      refine ⟨_, _, data, hshows, hthing, ?_⟩
      rw [Program.attribute?, Program.nodeAttribute?_eq_lookup (h.known node hvalue)]
      exact hstand.lookup name
    | block id =>
      obtain ⟨block, hblock⟩ := Option.isSome_iff_exists.1 hvalue
      obtain ⟨data, hthing, hstand⟩ := records_ofProgram h (.block hblock)
      have hroot := h.below program.root .self
      refine ⟨_, _, data, hshows, hthing, ?_⟩
      rw [beq_eq_false_iff_ne.2 (by omega), if_neg Bool.false_ne_true, append_nil] at hstand
      rw [Program.attribute?, Program.blockAttribute?_eq_lookup hblock]
      exact hstand.lookup name
    | tag | type =>
      obtain ⟨data, ⟨ref, rfl, -, hthing⟩, hstand⟩ := hshows
      refine ⟨ref, _, data, rfl, hthing, ?_⟩
      exact StandFor.lookup (hstand.mono (fun _ _ _ => id) fun _ _ => False.elim) name
    | _ => cases hvalue
  have hget : (ofProgram program).get? (.thing ref) name =
      (data.lookup name).or (offered sort.operations name) := by
    rw [get?, thing?, hthing]
  rw [hget]
  generalize program.attribute? value name = asked, data.lookup name = given at hrel
  cases hrel with
  | some hfound => exact ⟨fun _ heq => ⟨_, rfl, Option.some.inj heq ▸ hfound⟩, nofun⟩
  | none =>
    refine ⟨nofun, fun _ datum' hoffered => ?_⟩
    rw [Option.none_or, offered] at hoffered
    split at hoffered
    · exact (Option.some.inj hoffered).symm
    · cases hoffered

/-- There are consistent programs: here, one of a single name. -/
example : ∃ program : Program, program.Consistent ∧ program.root.childNodes ≠ [] := by
  let name : Node := .mk .identifier 1 (some ⟨0, 1⟩) (some 0) none [(.name, .text "a")]
  let root : Node := .mk .program 0 (some ⟨0, 1⟩) none none [(.body, .list [.node name])]
  have hwithin : ∀ value : Value, value.Within (.node root) → value = .node root ∨
      value = .list [.node name] ∨ value = .node name ∨ value = .text "a" := by
    rintro value (_ | _ | ⟨hpair, hinner⟩)
    · exact .inl rfl
    · obtain rfl := mem_singleton.1 hpair
      rcases hinner with _ | ⟨hitem, hinner⟩ | _
      · exact .inr (.inl rfl)
      · obtain rfl := mem_singleton.1 hitem
        rcases hinner with _ | _ | ⟨hpair, hinner⟩
        · exact .inr (.inr (.inl rfl))
        · obtain rfl := mem_singleton.1 hpair
          cases hinner
          exact .inr (.inr (.inr rfl))
  have hnode : ∀ node, (Value.node node).Within (.node root) → node = root ∨ node = name := by
    intro node hnode
    rcases hwithin _ hnode with heq | heq | heq | heq <;> cases heq
    · exact .inl rfl
    · exact .inr rfl
  refine ⟨{ root, source := some ['a'], nextNode := 2 }, ⟨rfl, ?_, ?_, ?_, ?_, ?_, nofun⟩, nofun⟩
  · rintro value hvalue
    rcases hwithin value hvalue with rfl | rfl | rfl | rfl <;> rfl
  · intro node h
    rcases hnode node h with rfl | rfl <;> decide
  · intro node h
    rcases hnode node h with rfl | rfl <;> decide
  · intro node other h h' heq
    rcases hnode node h with rfl | rfl <;> rcases hnode other h' with rfl | rfl
    · rfl
    · cases heq
    · cases heq
    · rfl
  · intro node h
    rcases hnode node h with rfl | rfl <;> rintro id ⟨⟩
    rfl

end Draft

end DocTypes
