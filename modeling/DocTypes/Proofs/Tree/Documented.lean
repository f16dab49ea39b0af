import DocTypes.Proofs.Program.Read
import DocTypes.Proofs.Tree.Node

/-!
# Nodes that are documented

A node names the block that documents it. `DocsIn` says of a node and all that its fields hold that
these blocks are among the first ones. Attaching blocks to the nodes of a tree sees to it
(`docsIn_attach`), and nothing that is done to the tree later loses it.
-/

namespace DocTypes

open List

namespace Node

/-- The blocks that document a node and what its fields hold are among the first `count`. -/
inductive DocsIn (count : Nat) : Node → Prop
  | intro {node : Node} (here : ∀ id, node.doc = some id → id < count)
    (below : ∀ field value, node.get? field = some value →
      ∀ child, Value.node child ∈ value.flat → DocsIn count child) : DocsIn count node

variable {count : Nat} {node child : Node} {field : Field}

section
variable (h : node.DocsIn count)
include h

theorem DocsIn.here {id : Nat} (hid : node.doc = some id) : id < count := by
  cases h with
  | intro here _ => exact here id hid

/-- What a field holds. -/
theorem DocsIn.held {value : Value} (hvalue : node.get? field = some value)
    (hchild : Value.node child ∈ value.flat) : child.DocsIn count := by
  cases h with
  | intro _ below => exact below field value hvalue child hchild

/-- The node that a field is. -/
theorem DocsIn.get (hget : node.get field = .node child) : child.DocsIn count := by
  cases hvalue : node.get? field with
  | none =>
    rw [Node.get, hvalue] at hget
    cases hget
  | some value =>
    rw [Node.get, hvalue] at hget
    cases hget
    exact h.held hvalue (mem_singleton_self _)

/-- A node that a walk through a field meets. -/
theorem DocsIn.element {values : List Value} (hvalues : (node.get field).elements? = some values)
    (hchild : Value.node child ∈ values) : child.DocsIn count := by
  cases hget : node.get field with
  | list items =>
    rw [hget] at hvalues
    cases hvalues
    exact h.held (get?_of_get_list hget) hchild
  | text value =>
    rw [hget] at hvalues
    cases hvalues
    obtain ⟨_, -, heq⟩ := mem_map.1 hchild
    cases heq
  | regex pattern flags =>
    rw [hget] at hvalues
    cases hvalues
    simp at hchild
  | _ =>
    rw [hget] at hvalues
    cases hvalues

/-- More blocks may be there. -/
theorem DocsIn.mono {more : Nat} (hle : count ≤ more) : node.DocsIn more := by
  induction h with
  | intro here _ ih =>
    exact ⟨fun id hid => Nat.lt_of_lt_of_le (here id hid) hle, ih⟩

/-- Another parent changes nothing. -/
theorem DocsIn.withParent (parent : Option Nat) : (node.withParent parent).DocsIn count := by
  obtain ⟨kind, id, span, parent', doc, fields⟩ := node
  exact ⟨fun _ => h.here, fun _ _ hvalue _ => h.held hvalue⟩

end

/-- A node stands below another on a walk. -/
theorem DocsIn.of_mem_walkTo : ∀ {levels : Nat} {node : Node}, node.DocsIn count →
    child ∈ walkTo levels node → child.DocsIn count
  | 0, _, _, hmem => nomatch hmem
  | levels + 1, node, h, hmem => by
    rcases mem_cons.1 hmem with rfl | hmem
    · exact h
    · obtain ⟨inner, hinner, hmem⟩ := mem_flatMap.1 hmem
      refine DocsIn.of_mem_walkTo ?_ hmem
      obtain ⟨value, hvalue, hnode⟩ := mem_filterMap.1 hinner
      obtain ⟨field, -, hflat⟩ := mem_flatMap.1 hvalue
      cases value with
      | node other =>
        cases hnode
        cases hget : node.get? field with
        | none =>
          rw [Node.get, hget] at hflat
          cases mem_singleton.1 hflat
        | some value =>
          rw [Node.get, hget] at hflat
          exact h.held hget hflat
      | _ => cases hnode

theorem DocsIn.of_find? {root : Node} (h : root.DocsIn count) {id : Nat}
    (hfind : root.find? id = some node) : node.DocsIn count :=
  h.of_mem_walkTo (mem_of_find?_eq_some hfind)

/-- Setting a field leaves the block that documents a node. -/
theorem doc_set (node : Node) (field : Field) (value : Value) :
    (node.set field value).doc = node.doc := by
  obtain ⟨kind, id, span, parent, doc, fields⟩ := node
  rw [Node.set]
  split <;> rfl

/-- A field is set to a list of nodes that were there and of other things. -/
theorem DocsIn.set (h : node.DocsIn count) {items others : List Value}
    (hget : node.get? field = some (.list items)) (hothers : ∀ value ∈ others, value.node? = none) :
    (node.set field (.list (items ++ others))).DocsIn count := by
  have hsome : (node.get? field).isSome := Option.isSome_of_eq_some hget
  refine ⟨fun id hid => h.here ((doc_set ..).symm.trans hid),
    fun other value hvalue child hchild => ?_⟩
  by_cases hother : other = field
  · subst hother
    rw [get?_set_self hsome] at hvalue
    cases hvalue
    rcases mem_append.1 hchild with hchild | hchild
    · exact h.held hget hchild
    · cases hothers _ hchild
  · rw [get?_set_of_ne hsome hother] at hvalue
    exact h.held hvalue hchild

/-- Every node is told which block documents it, one of the first ones. -/
theorem docsIn_mapNodes_withDoc {docOf : Node → Option Nat}
    (h : ∀ node id, docOf node = some id → id < count) : ∀ (height : Nat) (node : Node),
      node.height ≤ height →
        (node.mapNodes fun node => node.withDoc (docOf node)).DocsIn count := by
  intro height
  induction height with
  | zero => exact fun node hle => absurd node.height_pos (Nat.not_lt.2 hle)
  | succ height ih =>
    intro node hle
    obtain ⟨kind, id, span, parent, doc, fields⟩ := node
    refine ⟨fun _ => h _ _, fun field value hvalue child hchild => ?_⟩
    change (mapFields _ fields).lookup field = some value at hvalue
    rw [lookup_mapFields] at hvalue
    obtain ⟨value, hget, rfl⟩ := Option.map_eq_some_iff.1 hvalue
    rw [flat_mapValue] at hchild
    obtain ⟨inner, hinner, heq⟩ := mem_map.1 hchild
    cases inner with
    | node inner =>
      cases heq
      refine ih inner ?_
      have hlower : valueHeight value < Node.height (.mk kind id span parent doc fields) :=
        valueHeight_lt_of_get? hget
      have hwithin := valueHeight_le_of_mem_flat hinner
      change inner.height ≤ _ at hwithin
      omega
    | _ => cases heq

/-- Every node is told who stands above it. -/
theorem DocsIn.linkParents (h : node.DocsIn count) : node.linkParents.DocsIn count := by
  induction h with
  | @intro node here _ ih =>
    obtain ⟨kind, id, span, parent, doc, fields⟩ := node
    refine ⟨here, fun field value hvalue child hchild => ?_⟩
    change (adopt (.mk kind id span parent doc (mapFields adopt fields))).get? field = some value
      at hvalue
    have hrel := relinks_adopt.fields (.mk kind id span parent doc (mapFields adopt fields)) field
    rw [hvalue] at hrel
    generalize hmapped : Node.get? (.mk kind id span parent doc (mapFields adopt fields)) field =
      before at hrel
    cases hrel with
    | @some old _ hold =>
    change (mapFields adopt fields).lookup field = some old at hmapped
    rw [lookup_mapFields] at hmapped
    obtain ⟨first, hget, rfl⟩ := Option.map_eq_some_iff.1 hmapped
    obtain ⟨inner, hinner, hadopted⟩ := exists_mem_of_forall₂ hold.flat hchild
    rw [flat_mapValue] at hinner
    obtain ⟨origin, horigin, heq⟩ := mem_map.1 hinner
    have hbelow : ∀ other, inner = .node other → other.DocsIn count := by
      rintro other rfl
      cases origin with
      | node origin =>
        cases heq
        exact ih field first hget origin horigin
      | _ => cases heq
    rcases hadopted with rfl | ⟨other, parent, rfl, hchild⟩
    · exact hbelow child rfl
    · cases hchild
      exact (hbelow other rfl).withParent parent

end Node

/-- After blocks were attached to nodes, the nodes are documented by these. -/
theorem docsIn_attach {lexed : Lexed} (root : Node) {blocks : List Block}
    (hlength : blocks.length = (lexed.comments.filter Comment.isDoc).length) :
    (attach lexed root blocks).1.DocsIn blocks.length := by
  refine Node.docsIn_mapNodes_withDoc (fun node id hid => ?_) root.height root (Nat.le_refl _)
  have hlt := (findIdx?_eq_some_iff_findIdx_eq.1 hid).1
  rwa [length_subjects, ← hlength] at hlt

/-- The nodes of a program that was read are documented by its blocks. -/
theorem Program.docsIn_of_read {source : List Char} {program : Program}
    (h : Program.read source = .ok program) : program.root.DocsIn program.blocks.size := by
  obtain ⟨lexed, hlexed, h⟩ := bind_eq_ok.1 h
  obtain ⟨⟨root, nextNode⟩, -, h⟩ := bind_eq_ok.1 h
  obtain ⟨⟨blocks, docs⟩, hblocks, h⟩ := bind_eq_ok.1 h
  cases h
  obtain ⟨pieces, hl, hs⟩ := lexesSource_of_lex (mapError_eq_ok.1 hlexed)
  have hlength := (DocReader.laidOutFrom_readAll hl hs (mapError_eq_ok.1 hblocks)).length_eq
  have hattached := docsIn_attach root hlength
  rw [(attach_spec root hlength).2.length_eq] at hattached
  exact hattached.linkParents

end DocTypes
