import DocTypes.Program.View
import DocTypes.Proofs.Reader.Program
import DocTypes.Proofs.Selector.Walk
import DocTypes.Proofs.TypeExpr.Arena

/-!
# What selectors see of a program that was read

Below the root stand the statements and the registered blocks, below a block its tags, below a tag
its type and below a type its parts: `children_node`, `children_root`, `children_block`,
`children_tag` and `children_type` say what `View.children` lists. So everything that can be met
from the root of a program is seen (`closed_isAmong`), if the keys of its types lead somewhere.
-/

namespace DocTypes

open List

/-- The names that stand for more than a field of a node. -/
def reservedNames : List String :=
  ["type", "start", "end", "parent", "jsdoc", "source_text", "doc_blocks", "source_blocks",
   "comments", "types"]

/-- Below a node of a known kind stands what its fields with children hold. -/
theorem childNames_text : ∀ kind ∈ Kind.known, kind ≠ .program →
    childNames kind.text = kind.childFields.map Field.text := by
  decide +kernel

/-- A field with children goes by a name of its own. -/
theorem childFields_text : ∀ kind ∈ Kind.known, ∀ field ∈ kind.childFields,
    field.text ∉ reservedNames ∧ Field.ofText field.text = field := by
  decide +kernel

/-- A node of a known kind is called by it. -/
theorem kindText?_node {node : Node} (h : node.kind ∈ Kind.known) :
    Value.kindText? (.node node) = some node.kind.text := by
  have hnamed : ∀ kind ∈ Kind.known, (kind == Kind.unnamed) = false := by decide
  rw [Value.kindText?, hnamed node.kind h]
  rfl

/-- A placed node is of a known kind, and no program. -/
theorem Placed.kind_known {tokens : List Token} {node : Node} (h : Placed tokens node) :
    node.kind ∈ Kind.known ∧ node.kind ≠ .program := by
  cases h with
  | intro place bounds arranged below =>
  rw [Bounded] at bounds
  split at bounds
  case isTrue hkind => rw [hkind]; decide
  case isFalse =>
    refine ⟨Kind.known_of_isForm bounds.1, fun hkind => ?_⟩
    rw [hkind] at bounds
    cases bounds.1

namespace Program

/-- A program of which all can be seen: it was read, and the keys of its types lead somewhere. -/
structure Legible (program : Program) : Prop where
  source : ∃ source, program.source = some source
  rooted : ∃ tokens length, Rooted tokens length program.root
  registered : ∀ id ∈ program.registered, ∃ block, program.block? id = some block
  keys : ∀ id block, program.block? id = some block → ∀ tag ∈ block.tags, ∀ key,
    tag.typeKey = some key → key < program.types.slots.size
  types : program.types.Closed

/-- What can be met on a walk through a program on which the blocks that are met are among some. -/
def IsAmong (program : Program) (ids : Nat → Prop) : Value → Prop
  | .node node => node = program.root ∨ ∃ tokens, Placed tokens node
  | .block id => ids id
  | .tag tag => ∃ id, ids id ∧ ∃ block, program.block? id = some block ∧ tag ∈ block.tags
  | .type node => program.types.get? node.key = some node
  | _ => False

/-- What can be met on a walk through a program that holds no blocks but the registered ones. -/
def IsSeen (program : Program) : Value → Prop :=
  program.IsAmong (· ∈ program.registered)

/-- A program that can be walked through: what stands below its root are statements and some blocks,
and the keys of its types lead somewhere. -/
structure Viewable (program : Program) (ids : Nat → Prop) : Prop where
  kind : program.root.kind = .program
  children : ∃ children, program.view.children (.node program.root) = .ok children ∧
    ∀ child ∈ children, (∃ tokens node, child = .node node ∧ Placed tokens node) ∨
      ∃ id, child = .block id ∧ ids id
  nodes : ∀ children, program.view.children (.node program.root) = .ok children →
    ∀ node, .node node ∈ children → .node node ∈ program.root.childValues
  blocks : ∀ id, ids id → ∃ block, program.block? id = some block
  keys : ∀ id block, program.block? id = some block → ∀ tag ∈ block.tags, ∀ key,
    tag.typeKey = some key → key < program.types.slots.size
  types : program.types.Closed

variable {program : Program}

/-- A name that is not taken stands for a field, and on the root for more. -/
theorem nodeAttribute?_of_notMem {node : Node} {name : String}
    (h : name ∉ ["type", "start", "end", "parent", "jsdoc"]) :
    program.nodeAttribute? node name = (node.get? (.ofText name)).or
      (if node.id == program.root.id then program.rootAttributes.lookup name else none) := by
  unfold nodeAttribute?
  split
  iterate 5 exact absurd (by decide) h
  cases node.get? (.ofText name) <;> rfl

/-- A name of its own stands for a field. -/
theorem nodeAttribute?_eq {node : Node} {name : String} (h : name ∉ reservedNames) :
    program.nodeAttribute? node name = node.get? (.ofText name) := by
  have hroot : program.rootAttributes.lookup name = none := by
    rw [rootAttributes]
    split
    · rfl
    · refine lookup_eq_none_iff.2 fun pair hmem => ?_
      rw [bne_iff_ne]
      rintro rfl
      refine h ?_
      simp only [mem_cons, not_mem_nil, or_false] at hmem
      rcases hmem with rfl | rfl | rfl | rfl | rfl
      all_goals
        dsimp only
        decide
  rw [nodeAttribute?_of_notMem fun hmem => h (mem_append_left _ hmem), hroot, ite_self,
    Option.or_none]

/-- The item stands for the child, and both are holes or none is. -/
def StandsFor (program : Program) (item child : Value) : Prop :=
  program.resolve item = .ok child ∧ child.isNull = item.isNull

/-- Items that stand for something stand for a list of things. -/
theorem exists_standsFor {items : List Value}
    (h : ∀ item ∈ items, ∃ child, program.StandsFor item child) :
    ∃ children, List.Forall₂ program.StandsFor items children := by
  induction items with
  | nil => exact ⟨[], .nil⟩
  | cons item rest ih =>
    obtain ⟨⟨child, hchild⟩, hrest⟩ := forall_mem_cons.1 h
    obtain ⟨children, hchildren⟩ := ih hrest
    exact ⟨child :: children, .cons hchild hchildren⟩

/-- What stands below a thing, given the values of its attributes that say so. -/
theorem held_spec {value : Value} {values : List Value}
    (hvalues : (childNames (value.kindText?.getD "")).filterMap (program.attribute? value) = values)
    (h : ∀ item ∈ values.flatMap Value.flat, ∃ child, program.StandsFor item child) :
    ∃ held, program.held value = .ok held ∧
      List.Forall₂ program.StandsFor (values.flatMap Value.flat) (held.flatMap Held.items) := by
  rw [held, hvalues]
  clear hvalues
  induction values with
  | nil => exact ⟨[], rfl, .nil⟩
  | cons first rest ih =>
    rw [flatMap_cons, forall_mem_append] at h
    obtain ⟨children, hchildren⟩ := exists_standsFor h.1
    obtain ⟨later, hlater, hitems⟩ := ih h.2
    have hmap := mapM_eq_ok.1 hlater
    cases first with
    | list items =>
      refine ⟨⟨true, children⟩ :: later, mapM_eq_ok.2 (.cons ?_ hmap),
        rel_append hchildren hitems⟩
      exact bind_eq_ok.2 ⟨children, mapM_eq_ok.2 (hchildren.imp fun _ _ hrel => hrel.1), rfl⟩
    | _ =>
      cases hchildren with
      | @cons _ child _ _ hfirst hnil =>
      cases hnil
      have hone : List.Forall₂ program.StandsFor _ [child] := .cons hfirst .nil
      exact ⟨⟨false, [child]⟩ :: later,
        mapM_eq_ok.2 (.cons (bind_eq_ok.2 ⟨child, hfirst.1, rfl⟩) hmap),
        rel_append hone hitems⟩

/-- What stands right below a thing, given the values of its attributes that say so. -/
theorem children_spec {value : Value} {values : List Value}
    (hvalues : (childNames (value.kindText?.getD "")).filterMap (program.attribute? value) = values)
    (h : ∀ item ∈ values.flatMap Value.flat, ∃ child, program.StandsFor item child) :
    ∃ children, program.view.children value = .ok children ∧
      List.Forall₂ program.StandsFor
        ((values.flatMap Value.flat).filter fun item => !item.isNull) children := by
  obtain ⟨held, hheld, hitems⟩ := held_spec hvalues h
  refine ⟨(held.flatMap Held.items).filter fun child => !child.isNull,
    bind_eq_ok.2 ⟨held, hheld, rfl⟩, rel_filter (fun item child hrel => ?_) hitems⟩
  simp only [hrel.2]

/-- Nodes and holes stand for themselves. -/
theorem standsFor_self {item : Value} (h : item = .null ∨ ∃ node, item = .node node) :
    program.StandsFor item item := by
  rcases h with rfl | ⟨node, rfl⟩ <;> exact ⟨rfl, rfl⟩

/-- Values that stand for themselves are what they stand for. -/
theorem eq_of_standsFor {items children : List Value}
    (h : List.Forall₂ program.StandsFor items children)
    (hself : ∀ item ∈ items, program.resolve item = .ok item) : children = items := by
  induction h with
  | nil => rfl
  | cons hrel _ ih =>
    obtain ⟨hitem, hrest⟩ := forall_mem_cons.1 hself
    rw [hrel.1] at hitem
    cases hitem
    rw [ih hrest]

/-- The fields with children of a node hold its children. -/
theorem childValues_eq (node : Node) (fields : List Field) :
    ((fields.filterMap node.get?).flatMap Value.flat).filter (fun item => !item.isNull) =
      (fields.flatMap fun field => (node.get field).flat).filter fun item => !item.isNull := by
  induction fields with
  | nil => rfl
  | cons field rest ih =>
    rw [flatMap_cons, filter_append, ← ih, filterMap_cons, Node.get]
    cases node.get? field with
    | none => rfl
    | some value => rw [Option.getD_some, flatMap_cons, filter_append]

/-- Below a placed node stand its children. -/
theorem children_node {tokens : List Token} {node : Node} (h : Placed tokens node) :
    program.view.children (.node node) =
      .ok (node.childValues.filter fun value => !value.isNull) := by
  obtain ⟨hknown, hkind⟩ := h.kind_known
  have hvalues : (childNames ((Value.kindText? (.node node)).getD "")).filterMap
      (program.attribute? (.node node)) = node.kind.childFields.filterMap node.get? := by
    rw [kindText?_node hknown, Option.getD_some, childNames_text _ hknown hkind, filterMap_map]
    refine filterMap_congr fun field hfield => ?_
    obtain ⟨hname, htext⟩ := childFields_text _ hknown field hfield
    exact (nodeAttribute?_eq hname).trans (by rw [htext])
  cases h with
  | intro place bounds arranged below =>
  have hself : ∀ item ∈ (node.kind.childFields.filterMap node.get?).flatMap Value.flat,
      item = .null ∨ ∃ child, item = .node child := by
    intro item hitem
    obtain ⟨value, hvalue, hitem⟩ := mem_flatMap.1 hitem
    obtain ⟨field, hfield, hget⟩ := mem_filterMap.1 hvalue
    have hmem : item ∈ node.childValues :=
      mem_flatMap.2 ⟨field, hfield, by rw [Node.get, hget]; exact hitem⟩
    exact arranged.null_or_node hmem
  obtain ⟨children, hchildren, hstands⟩ := children_spec hvalues
    fun item hitem => ⟨item, standsFor_self (hself item hitem)⟩
  rw [hchildren, eq_of_standsFor hstands fun item hitem =>
    (standsFor_self (hself item (mem_filter.1 hitem).1)).1, childValues_eq]
  rfl

/-- Below the root stand the items of its body and the registered blocks. -/
theorem children_body {source : List Char} {items : List Value}
    (hsource : program.source = some source) (hkind : program.root.kind = .program)
    (hunset : program.root.get? (.other "doc_blocks") = none)
    (hbody : program.root.get? .body = some (.list items))
    (hitems : ∀ item ∈ items, program.StandsFor item item) :
    program.view.children (.node program.root) =
      .ok (items.filter (fun value => !value.isNull) ++ program.registered.map .block) := by
  have hvalues : (childNames ((Value.kindText? (.node program.root)).getD "")).filterMap
      (program.attribute? (.node program.root)) =
        [.list items, .list (program.registered.map .block)] := by
    have hfirst : program.nodeAttribute? program.root "body" = some (.list items) :=
      (nodeAttribute?_eq (by decide)).trans hbody
    have hsecond : program.nodeAttribute? program.root "doc_blocks" =
        some (.list (program.registered.map .block)) := by
      rw [nodeAttribute?_of_notMem (by decide), show Field.ofText "doc_blocks" = .other "doc_blocks"
        from rfl, hunset, beq_self_eq_true, if_pos rfl, rootAttributes, hsource]
      rfl
    rw [kindText?_node (by rw [hkind]; decide), hkind]
    change ["body", "doc_blocks"].filterMap (program.nodeAttribute? program.root) = _
    rw [filterMap_cons_some hfirst, filterMap_cons_some hsecond, filterMap_nil]
  have hself :
    ∀ item ∈ [Value.list items, .list (program.registered.map .block)].flatMap Value.flat,
      program.StandsFor item item := by
    intro item hitem
    change item ∈ items ++ (program.registered.map .block ++ []) at hitem
    rw [append_nil, mem_append] at hitem
    rcases hitem with hitem | hitem
    · exact hitems item hitem
    · obtain ⟨id, _, rfl⟩ := mem_map.1 hitem
      exact ⟨rfl, rfl⟩
  obtain ⟨children, hchildren, hstands⟩ := children_spec hvalues
    fun item hitem => ⟨item, hself item hitem⟩
  rw [hchildren, eq_of_standsFor hstands fun item hitem =>
    (hself item (mem_filter.1 hitem).1).1]
  change Except.ok ((items ++ (program.registered.map Value.block ++ [])).filter _) = _
  rw [append_nil, filter_append]
  congr 2
  refine filter_eq_self.2 fun value hvalue => ?_
  obtain ⟨id, _, rfl⟩ := mem_map.1 hvalue
  rfl

/-- Below the root stand the statements and the registered blocks. -/
theorem children_root (h : program.Legible) :
    program.view.children (.node program.root) =
      .ok (program.root.childValues.filter (fun value => !value.isNull) ++
        program.registered.map .block) := by
  obtain ⟨tokens, length, hrooted⟩ := h.rooted
  obtain ⟨source, hsource⟩ := h.source
  obtain ⟨items, hbody⟩ := hrooted.body
  have hchildValues := childValues_of_body hrooted.kind hbody
  have hget := Node.get?_of_get_list hbody
  rw [hchildValues]
  refine children_body hsource hrooted.kind hrooted.unset hget fun item hitem => ?_
  exact standsFor_self (hrooted.arranged.null_or_node (hchildValues ▸ hitem))

/-- Below a block stand its tags. -/
theorem children_block {id : Nat} {block : Block} (h : program.block? id = some block) :
    program.view.children (.block id) = .ok (block.tags.map .tag) := by
  have hvalues : (childNames ((Value.kindText? (.block id)).getD "")).filterMap
      (program.attribute? (.block id)) = [.list (block.tags.map .tag)] := by
    change ["tags"].filterMap (program.blockAttribute? id) = _
    have htags : program.blockAttribute? id "tags" = some (.list (block.tags.map .tag)) := by
      rw [blockAttribute?, h]
      rfl
    rw [filterMap_cons_some htags, filterMap_nil]
  have hself : ∀ item ∈ [Value.list (block.tags.map .tag)].flatMap Value.flat,
      ∃ tag, item = .tag tag := by
    intro item hitem
    change item ∈ block.tags.map Value.tag ++ [] at hitem
    rw [append_nil] at hitem
    obtain ⟨tag, _, rfl⟩ := mem_map.1 hitem
    exact ⟨tag, rfl⟩
  have hstand : ∀ item ∈ [Value.list (block.tags.map .tag)].flatMap Value.flat,
      program.StandsFor item item := by
    intro item hitem
    obtain ⟨tag, rfl⟩ := hself item hitem
    exact ⟨rfl, rfl⟩
  obtain ⟨children, hchildren, hstands⟩ := children_spec hvalues
    fun item hitem => ⟨item, hstand item hitem⟩
  rw [hchildren, eq_of_standsFor hstands fun item hitem =>
    (hstand item (mem_filter.1 hitem).1).1]
  change Except.ok ((block.tags.map Value.tag ++ []).filter _) = _
  rw [append_nil]
  congr 1
  refine filter_eq_self.2 fun value hvalue => ?_
  obtain ⟨tag, _, rfl⟩ := mem_map.1 hvalue
  rfl

/-- A key stands for the type in its slot. -/
theorem standsFor_key {key : Nat} {node : TypeNode} (h : program.types.get? key = some node) :
    program.StandsFor (.key key) (.type node) := by
  refine ⟨?_, rfl⟩
  rw [Value.key, resolve, show Int.toNat? (key : Int) = some key from rfl, Option.bind_some, h]

/-- The value is the type in the slot of a key. -/
def IsTypeAt (program : Program) (key : Nat) (value : Value) : Prop :=
  ∃ node, program.types.get? key = some node ∧ value = .type node

/-- Keys that lead somewhere stand for types. -/
theorem isTypeAt_of_standsFor {keys : List Nat} {children : List Value}
    (hkeys : ∀ key ∈ keys, key < program.types.slots.size)
    (h : List.Forall₂ program.StandsFor (keys.map .key) children) :
    List.Forall₂ program.IsTypeAt keys children := by
  rw [forall₂_map_left_iff] at h
  induction h with
  | nil => exact .nil
  | cons hrel _ ih =>
    obtain ⟨hkey, hrest⟩ := forall_mem_cons.1 hkeys
    obtain ⟨node, hnode⟩ := Arena.exists_get hkey
    have hresolve := hrel.1
    rw [(standsFor_key hnode).1] at hresolve
    cases hresolve
    exact .cons ⟨node, hnode, rfl⟩ (ih hrest)

/-- What stands below a thing whose attributes hold keys and holes. -/
theorem children_of_keys {value : Value} {values : List Value} {keys : List Nat}
    (hvalues : (childNames (value.kindText?.getD "")).filterMap (program.attribute? value) = values)
    (hkeys : (values.flatMap Value.flat).filter (fun item => !item.isNull) = keys.map .key)
    (h : ∀ key ∈ keys, key < program.types.slots.size) :
    ∃ children, program.view.children value = .ok children ∧
      List.Forall₂ program.IsTypeAt keys children := by
  have hstands : ∀ item ∈ values.flatMap Value.flat, ∃ child, program.StandsFor item child := by
    intro item hitem
    cases hnull : item.isNull with
    | true =>
      refine ⟨item, standsFor_self (.inl ?_)⟩
      cases item <;> first | rfl | cases hnull
    | false =>
      have hmem : item ∈ (values.flatMap Value.flat).filter fun item => !item.isNull :=
        mem_filter.2 ⟨hitem, by rw [hnull]; rfl⟩
      rw [hkeys] at hmem
      obtain ⟨key, hkey, rfl⟩ := mem_map.1 hmem
      obtain ⟨node, hnode⟩ := Arena.exists_get (h key hkey)
      exact ⟨.type node, standsFor_key hnode⟩
  obtain ⟨children, hchildren, hall⟩ := children_spec hvalues hstands
  rw [hkeys] at hall
  exact ⟨children, hchildren, isTypeAt_of_standsFor h hall⟩

/-- Below a tag stands its type. -/
theorem children_tag {tag : Tag}
    (h : ∀ key, tag.typeKey = some key → key < program.types.slots.size) :
    ∃ children, program.view.children (.tag tag) = .ok children ∧
      List.Forall₂ program.IsTypeAt tag.typeKey.toList children := by
  refine children_of_keys rfl ?_ fun key hkey => h key (Option.mem_toList.1 hkey)
  change List.filter _ ([Value.key? tag.typeKey].flatMap Value.flat) = _
  cases tag.typeKey <;> rfl

/-- No key is a hole. -/
theorem filter_keys (keys : List Nat) :
    (keys.map Value.key).filter (fun item => !item.isNull) = keys.map .key := by
  refine filter_eq_self.2 fun item hitem => ?_
  obtain ⟨key, _, rfl⟩ := mem_map.1 hitem
  rfl

/-- The attributes of a type under which its parts stand hold their keys. -/
theorem attributes_parts (node : TypeNode) :
    (((childNames node.shape.kindText).filterMap fun name => node.attributes.lookup name).flatMap
      Value.flat).filter (fun item => !item.isNull) = node.shape.children.map .key := by
  obtain ⟨key, shape⟩ := node
  cases shape with
  | name | any | unknown | string | number => rfl
  | union elements | intersection elements | tuple elements | object elements =>
    exact (congrArg _ (append_nil _)).trans (filter_keys elements)
  | generic head arguments dotted =>
    refine (congrArg _ (congrArg _ (append_nil _))).trans ?_
    exact filter_keys (head :: arguments)
  | array | parenthesis | nullable | notNullable | optional | typeof | keyof => rfl
  | field name type optional readonly quote => cases type <;> rfl
  | parameter name type optional variadic => cases type <;> rfl
  | function parameters result arrow constructs =>
    cases result with
    | none =>
      change List.filter _ (parameters.map Value.key ++ [.null]) = _
      rw [filter_append, filter_keys]
      exact (append_nil _).trans (congrArg _ (append_nil _).symm)
    | some result =>
      change List.filter _ (parameters.map Value.key ++ [.key result]) =
        (parameters ++ [result]).map _
      rw [← map_singleton, ← map_append, filter_keys]
  | variadic element => cases element <;> rfl

/-- Below a type stand its parts. -/
theorem children_type {node : TypeNode}
    (h : ∀ part ∈ node.shape.children, part < program.types.slots.size) :
    ∃ children, program.view.children (.type node) = .ok children ∧
      List.Forall₂ program.IsTypeAt node.shape.children children :=
  children_of_keys rfl (attributes_parts node) h

/-- Only placed nodes stand below a placed node. -/
theorem closed_placed : program.view.Closed fun value =>
    ∃ tokens node, value = .node node ∧ Placed tokens node := by
  rintro _ ⟨tokens, node, rfl, hplaced⟩
  refine ⟨_, children_node hplaced, fun child hchild => ?_⟩
  cases hplaced with
  | intro place bounds arranged below =>
  obtain ⟨hmem, hnull⟩ := mem_filter.1 hchild
  rcases arranged.null_or_node hmem with rfl | ⟨inner, rfl⟩
  · cases hnull
  · exact ⟨tokens, inner, rfl, below inner (mem_filterMap.2 ⟨_, hmem, rfl⟩)⟩

/-- The value is the type in a slot. -/
def IsStored (program : Program) (value : Value) : Prop :=
  ∃ node, value = .type node ∧ program.types.get? node.key = some node

/-- What stands in a slot is stored. -/
theorem IsTypeAt.isStored (h : program.types.Closed) {key : Nat} {value : Value}
    (hvalue : program.IsTypeAt key value) : program.IsStored value := by
  obtain ⟨node, hnode, rfl⟩ := hvalue
  exact ⟨node, rfl, by rw [h.key key node hnode, hnode]⟩

/-- Only types stand below a type. -/
theorem closed_isStored (h : program.types.Closed) : program.view.Closed program.IsStored := by
  rintro _ ⟨node, rfl, hnode⟩
  obtain ⟨children, hchildren, hforall⟩ := children_type (h.parts _ node hnode)
  refine ⟨children, hchildren, fun child hchild => ?_⟩
  obtain ⟨key, -, hkey⟩ := exists_mem_of_forall₂ hforall hchild
  exact hkey.isStored h

/-- What stands below what is met is met too. -/
theorem closed_isAmong {ids : Nat → Prop} (h : program.Viewable ids) :
    program.view.Closed (program.IsAmong ids) := by
  intro value hvalue
  have hstored : ∀ {value}, program.IsStored value → program.IsAmong ids value := by
    rintro _ ⟨node, rfl, hnode⟩
    exact hnode
  cases value with
  | node node =>
    by_cases hroot : node = program.root
    · subst hroot
      obtain ⟨children, hchildren, hkinds⟩ := h.children
      refine ⟨children, hchildren, fun child hchild => ?_⟩
      rcases hkinds child hchild with ⟨tokens, inner, rfl, hplaced⟩ | ⟨id, rfl, hid⟩
      · exact .inr ⟨tokens, hplaced⟩
      · exact hid
    · obtain ⟨tokens, hplaced⟩ := hvalue.resolve_left hroot
      have hclosed : program.view.Closed _ := closed_placed
      obtain ⟨children, hchildren, hbelow⟩ := hclosed _ ⟨tokens, node, rfl, hplaced⟩
      refine ⟨children, hchildren, fun child hchild => ?_⟩
      obtain ⟨tokens, inner, rfl, hinner⟩ := hbelow child hchild
      exact .inr ⟨tokens, hinner⟩
  | block id =>
    obtain ⟨block, hblock⟩ := h.blocks id hvalue
    exact ⟨_, children_block hblock, forall_mem_map.2 fun tag htag =>
      ⟨id, hvalue, block, hblock, htag⟩⟩
  | tag tag =>
    obtain ⟨id, _, block, hblock, htag⟩ := hvalue
    obtain ⟨children, hchildren, hall⟩ := children_tag (h.keys id block hblock tag htag)
    refine ⟨children, hchildren, fun child hchild => hstored ?_⟩
    obtain ⟨key, -, htype⟩ := exists_mem_of_forall₂ hall hchild
    exact htype.isStored h.types
  | type node =>
    obtain ⟨children, hchildren, hbelow⟩ := closed_isStored h.types _ ⟨node, rfl, hvalue⟩
    exact ⟨children, hchildren, fun child hchild => hstored (hbelow child hchild)⟩
  | _ => exact hvalue.elim

/-- A legible program can be walked through, and the blocks that are met are registered. -/
theorem Legible.viewable (h : program.Legible) : program.Viewable (· ∈ program.registered) where
  kind := by
    obtain ⟨tokens, length, hrooted⟩ := h.rooted
    exact hrooted.kind
  children := by
    obtain ⟨tokens, length, hrooted⟩ := h.rooted
    refine ⟨_, children_root h, forall_mem_append.2 ⟨fun child hchild => ?_, ?_⟩⟩
    · obtain ⟨hmem, hnull⟩ := mem_filter.1 hchild
      rcases hrooted.arranged.nodes child hmem with rfl | ⟨inner, _, rfl, _⟩
      · cases hnull
      · exact .inl ⟨tokens, inner, rfl, hrooted.below inner (mem_filterMap.2 ⟨_, hmem, rfl⟩)⟩
    · exact forall_mem_map.2 fun id hid => .inr ⟨id, rfl, hid⟩
  nodes children hchildren node hnode := by
    cases hchildren.symm.trans (children_root h)
    rcases mem_append.1 hnode with hmem | hmem
    · exact (mem_filter.1 hmem).1
    · obtain ⟨_, _, heq⟩ := mem_map.1 hmem
      cases heq
  blocks := h.registered
  keys := h.keys
  types := h.types

end Program

end DocTypes
