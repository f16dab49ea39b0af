import DocTypes.Pass.ClassTypes
import DocTypes.Proofs.Print.Copy
import DocTypes.Proofs.Program.Depth
import DocTypes.Proofs.Program.Read
import Mathlib

/-!
# What the queries of passes answer

The selectors that passes use, and what they select in a program of which all can be seen: the
typedefs in blocks with `@local`, the blocks with nothing but `@local`, the blocks with `@export`,
and the references to a name.
-/

namespace DocTypes

open List

/-- Does the test hold of a text? -/
def AttributeTest.allows : AttributeTest → String → Bool
  | .present, _ => true
  | .equals text, value => value == text
  | .differs text, value => value != text

namespace Selector

/-- Selects tags by their titles. -/
def tagWith (test : AttributeTest) : Selector :=
  .allOf [.kind "DocTag", .attributeIs ["tag"] test]

/-- Selects what has a tag right below it. -/
def havingTag (test : AttributeTest) : Selector :=
  .having [.joined .child .scope (tagWith test)]

section
variable {α : Type} {view : View α} {thing parent : α} {above : List α} {subject : Option α}
  {selector left right : Selector} {rest : List Selector} {answer later : Bool}

/-- A selector is asked, and the others if it selects. -/
theorem selectsAll_cons (h : selector.selects view thing above subject = .ok answer)
    (hrest : answer = true → selectsAll view rest thing above subject = .ok later) :
    selectsAll view (selector :: rest) thing above subject = .ok (answer && later) := by
  rw [selectsAll, h]
  cases answer with
  | false => rfl
  | true => exact hrest rfl

/-- A thing is asked, and then the one right above it. -/
theorem selects_child (hright : right.selects view thing (parent :: above) subject = .ok answer)
    (hleft : answer = true → left.selects view parent above subject = .ok later) :
    (joined .child left right).selects view thing (parent :: above) subject =
      .ok (answer && later) := by
  rw [selects, hright]
  cases answer with
  | false => rfl
  | true => exact hleft rfl

end

/-- The selectors of `@local` typedefs, as they are read. -/
theorem read_localTypedefs : read Pass.localTypedefs.toList = .ok
    [.joined .child (.allOf [.kind "DocBlock", havingTag (.equals "local")])
      (tagWith (.equals "typedef"))] := by
  cbv

/-- The selectors of blocks with nothing but `@local`, as they are read. -/
theorem read_localOnly : read Pass.localOnly.toList = .ok
    [.allOf [.kind "DocBlock", havingTag (.equals "local"),
      .noneOf [havingTag (.differs "local")]]] := by
  cbv

/-- The selectors of blocks with `@export`, as they are read. -/
theorem read_exportBlocks : read Pass.exportBlocks.toList = .ok
    [.allOf [.kind "DocBlock", havingTag (.equals "export")]] := by
  cbv

end Selector

namespace Program

variable {program : Program}

/-- All can be seen of a program that was read. -/
theorem ReadFrom.legible {source : List Char} {pieces : List Piece} {lexed : Lexed}
    (h : program.ReadFrom source pieces lexed) : program.Legible where
  source := ⟨source, h.text⟩
  rooted := ⟨lexed.tokens, source.length, h.rooted⟩
  registered := by
    intro id hid
    rw [h.registered, mem_range] at hid
    exact ⟨program.blocks[id], Array.getElem?_eq_getElem hid⟩
  keys := by
    intro id block hblock tag htag key hkey
    have hmem : block ∈ program.blocks.toList :=
      mem_of_getElem? (Array.getElem?_toList.trans hblock)
    exact h.blocks.tags.types.keys key
      (mem_filterMap.2 ⟨tag, mem_flatMap.2 ⟨block, hmem, htag⟩, hkey⟩)
  types := h.blocks.tags.types.layered.closed

/-- The value is a tag whose title passes the test. -/
def isTagWith (test : AttributeTest) : Value → Bool
  | .tag tag => test.allows tag.title
  | _ => false

/-- The value is a block of which `q` holds. -/
def isBlockWith (q : Nat → Bool) : Value → Bool
  | .block id => q id
  | _ => false

/-- The block has a tag whose title passes the test. -/
def hasTagWith (program : Program) (test : AttributeTest) (id : Nat) : Bool :=
  ((program.block? id).map fun block => block.tags.any fun tag => test.allows tag.title).getD false

section
variable {ids : Nat → Prop}

/-- A node is called by no kind of documentation. -/
theorem kind_node (h : program.Viewable ids) {node : Node}
    (hseen : program.IsAmong ids (.node node))
    {name : String} (hname : Printer.documentKinds.contains name = true) :
    (Value.kindText? (.node node) == some name) = false := by
  have hknown : node.kind ∈ Kind.known := by
    rcases hseen with rfl | ⟨tokens, hplaced⟩
    · rw [h.kind]
      decide
    · exact hplaced.kind_known.1
  rw [kindText?_node hknown]
  refine beq_eq_false_iff_ne.2 fun heq => ?_
  cases heq
  rw [(documentKinds_not_contains node.kind hknown).2] at hname
  cases hname

/-- What is asked of the title of a tag. -/
theorem holds_title (test : AttributeTest) (tag : Tag) :
    test.holds program.view (program.view.follow? (.tag tag) ["tag"]) =
      .ok (test.allows tag.title) := by
  change test.holds program.view (some (.text tag.title)) = _
  cases test with
  | present => rfl
  | equals text => rfl
  | differs text => rfl

/-- Tags are selected by their titles. -/
theorem selects_tagWith (h : program.Viewable ids) (test : AttributeTest) {value : Value}
    (hseen : program.IsAmong ids value) (above : List Value) (subject : Option Value) :
    (Selector.tagWith test).selects program.view value above subject =
      .ok (isTagWith test value) := by
  cases value with
  | node node => exact Selector.selects_other_kind (kind_node h hseen (by decide))
  | block id => exact Selector.selects_other_kind rfl
  | tag tag =>
    rw [Selector.tagWith, Selector.selects, Selector.selectsAll, Selector.selects,
      Selector.selectsAll, Selector.selects, holds_title]
    change (if test.allows tag.title then Except.ok true else .ok false) = _
    rw [isTagWith]
    cases test.allows tag.title <;> rfl
  | type node =>
    refine Selector.selects_other_kind ?_
    obtain ⟨key, shape⟩ := node
    cases shape <;> rfl
  | _ => exact hseen.elim

/-- A walk through a program succeeds, and behind its thing meets what is seen. -/
theorem walk_spec (h : program.Viewable ids) {value : Value} (hseen : program.IsAmong ids value) :
    ∃ met, program.view.walk value = .ok met ∧
      (∀ inner path, (inner, path) ∈ met ↔
        path.length < program.levels ∧ program.view.Leads value path inner) ∧
      ∀ inner path, (inner, path) ∈ met.drop 1 ↔ ∃ between, path = between ++ [value] ∧
        path.length < program.levels ∧ program.view.Leads value path inner := by
  obtain ⟨met, hmet⟩ := View.walkFrom_eq_ok (closed_isAmong h) program.levels [] hseen
  refine ⟨met, hmet, fun inner path => ?_, fun inner path => ?_⟩
  · rw [View.mem_walkFrom hmet]
    constructor
    · rintro ⟨between, rfl, hlt, hleads⟩
      rw [append_nil]
      exact ⟨hlt, hleads⟩
    · exact fun ⟨hlt, hleads⟩ => ⟨path, (append_nil _).symm, hlt, hleads⟩
  · rw [View.mem_drop_walkFrom hmet]
    constructor
    · rintro ⟨between, rfl, hlt, hleads⟩
      refine ⟨between, rfl, ?_, hleads⟩
      rw [length_append, length_singleton]
      exact Nat.add_lt_add_right hlt 1
    · rintro ⟨between, rfl, hlt, hleads⟩
      rw [length_append, length_singleton] at hlt
      exact ⟨between, rfl, Nat.lt_of_add_lt_add_right hlt, hleads⟩

/-- What is the same as a block is the block. -/
theorem eq_block_of_same {value : Value} {id : Nat} (h : value.same (.block id) = true) :
    value = .block id := by
  cases value with
  | block other => rw [beq_iff_eq.1 h]
  | _ => cases h

section
variable (h : program.Viewable ids)
include h

/-- Blocks are selected by the tags that they have. -/
theorem selects_havingTag (test : AttributeTest) {id : Nat} (hid : ids id) (above : List Value)
    (subject : Option Value) :
    (Selector.havingTag test).selects program.view (.block id) above subject =
      .ok (program.hasTagWith test id) := by
  have hseen : program.IsAmong ids (.block id) := hid
  obtain ⟨block, hblock⟩ := h.blocks id hid
  obtain ⟨met, hmet, -, hbelow⟩ := walk_spec h hseen
  have hany : (met.drop 1).anyM (fun (inner, between) => Selector.selectsSome program.view
      [.joined .child .scope (Selector.tagWith test)] inner (between ++ above) (some (.block id))) =
      .ok ((met.drop 1).any fun (inner, path) =>
        isTagWith test inner && (path.head?.map (Value.same · (.block id))).getD false) := by
    refine anyM_eq_ok fun (inner, path) hmem => ?_
    obtain ⟨between, hpath, -, hleads⟩ := (hbelow inner path).1 hmem
    obtain ⟨parent, rest, rfl⟩ : ∃ parent rest, path = parent :: rest := by
      cases path with
      | nil => exact absurd hpath.symm (append_ne_nil_of_right_ne_nil _ (cons_ne_nil _ _))
      | cons parent rest => exact ⟨parent, rest, rfl⟩
    exact Selector.selectsSome_singleton.trans (Selector.selects_child
      (selects_tagWith h test (hleads.seen (closed_isAmong h) hseen) _ _) fun _ => rfl)
  rw [Selector.havingTag, Selector.selects, hmet]
  refine hany.trans (congrArg Except.ok ?_)
  rw [hasTagWith, hblock, Option.map_some, Option.getD_some, Bool.eq_iff_iff, any_eq_true,
    any_eq_true]
  constructor
  · rintro ⟨⟨inner, path⟩, hmem, hboth⟩
    obtain ⟨between, hpath, -, hleads⟩ := (hbelow inner path).1 hmem
    obtain ⟨htag, hparent⟩ := Bool.and_eq_true_iff.1 hboth
    cases path with
    | nil => cases hparent
    | cons parent rest =>
    obtain ⟨children, -, hchildren, hinner⟩ := hleads.parent
    cases eq_block_of_same hparent
    rw [children_block hblock] at hchildren
    cases hchildren
    obtain ⟨tag, hmember, rfl⟩ := mem_map.1 hinner
    exact ⟨tag, hmember, htag⟩
  · rintro ⟨tag, htag, htitle⟩
    refine ⟨(.tag tag, [.block id]), (hbelow _ _).2 ⟨[], rfl, ?_, ?_⟩, ?_⟩
    · rw [length_singleton, levels]
      omega
    · exact .down (children_block hblock) (mem_map_of_mem htag) .refl
    · simp [isTagWith, htitle, Value.same]

/-- Blocks are asked what is asked of them, other things are not. -/
theorem selects_block {parts : List Selector} {q : Nat → Bool} {value : Value} {above : List Value}
    {subject : Option Value} (hseen : program.IsAmong ids value) (hparts : ∀ id, ids id →
      Selector.selectsAll program.view parts (.block id) above subject = .ok (q id)) :
    (Selector.allOf (.kind "DocBlock" :: parts)).selects program.view value above subject =
      .ok (isBlockWith q value) := by
  cases value with
  | node node => exact Selector.selects_other_kind (kind_node h hseen (by decide))
  | block id =>
    rw [Selector.selects, Selector.selectsAll, Selector.selects]
    exact hparts id hseen
  | tag tag => exact Selector.selects_other_kind rfl
  | type node =>
    refine Selector.selects_other_kind ?_
    obtain ⟨key, shape⟩ := node
    cases shape <;> rfl
  | _ => exact hseen.elim

/-- What is asked of a block with one tag. -/
theorem selectsAll_havingTag (test : AttributeTest) {id : Nat} (hid : ids id) (above : List Value)
    (subject : Option Value) :
    Selector.selectsAll program.view [Selector.havingTag test] (.block id) above subject =
      .ok (program.hasTagWith test id) := by
  rw [Selector.selectsAll_singleton, selects_havingTag h _ hid]

/-- What is asked of a block with nothing but one tag. -/
theorem selectsAll_havingOnly (test other : AttributeTest) {id : Nat} (hid : ids id)
    (above : List Value) (subject : Option Value) :
    Selector.selectsAll program.view [Selector.havingTag test, .noneOf [Selector.havingTag other]]
      (.block id) above subject =
        .ok (program.hasTagWith test id && !program.hasTagWith other id) := by
  refine Selector.selectsAll_cons (selects_havingTag h _ hid _ _) fun _ => ?_
  rw [Selector.selectsAll_singleton, Selector.selects, Selector.selectsSome_singleton,
    selects_havingTag h _ hid]
  rfl

section
variable {text : String} {selectors : List Selector}
  (hread : Selector.read text.toList = .ok selectors)
include hread

/-- A query answers if its selectors can be asked about all that is met. -/
theorem exists_query (hanswers : ∀ value path, program.IsAmong ids value →
      program.view.Leads (.node program.root) path value →
      ∃ answer, Selector.selectsSome program.view selectors value path none = .ok answer) :
    ∃ result, program.query text = .ok result := by
  have hroot : program.IsAmong ids (.node program.root) := .inl rfl
  obtain ⟨met, hmet, hmem, -⟩ := walk_spec h hroot
  obtain ⟨result, hresult⟩ := View.exists_collect program.view
    (fun value path => Selector.selectsSome program.view selectors value path none) []
    (show ∀ entry ∈ met, _ from fun (value, path) hentry =>
      have hleads := ((hmem value path).1 hentry).2
      hanswers value path (hleads.seen (closed_isAmong h) hroot) hleads)
  refine ⟨result, bind_eq_ok.2 ⟨selectors, mapError_eq_ok.2 hread, mapError_eq_ok.2 ?_⟩⟩
  exact bind_eq_ok.2 ⟨met, hmet, hresult⟩

/-- A query answers with what its selectors select of what paths from the root lead to. -/
theorem collects_of_query {result : List Value} (hgrounded : program.types.Grounded)
    (hquery : program.query text = .ok result) : ∃ met,
      (∀ value path, (value, path) ∈ met ↔ program.view.Leads (.node program.root) path value) ∧
      program.view.Collects
        (fun value path => Selector.selectsSome program.view selectors value path none) [] met
        result := by
  have hroot : program.IsAmong ids (.node program.root) := .inl rfl
  obtain ⟨met, hmet, hmem, -⟩ := walk_spec h hroot
  refine ⟨met, fun value path => (hmem value path).trans (and_iff_right_of_imp ?_), ?_⟩
  · exact shallow_root h hgrounded path value
  · obtain ⟨others, hothers, hselect⟩ := bind_eq_ok.1 hquery
    cases hread.symm.trans (mapError_eq_ok.1 hothers)
    obtain ⟨others, hothers, hcollect⟩ := bind_eq_ok.1 (mapError_eq_ok.1 hselect)
    cases hmet.symm.trans hothers
    exact View.collects_of_collect hcollect

end

end

end

section
variable {ids : Nat → Prop} {levels : Nat} {above : List Value} {met : List (Value × List Value)}

/-- On a walk from a statement nodes are met. -/
theorem exists_node_of_mem_walk {tokens : List Token} {node : Node} (h : Placed tokens node)
    (hwalk : program.view.walkFrom levels (.node node) above = .ok met) :
    ∀ entry ∈ met, ∃ inner, entry.1 = .node inner := by
  rintro ⟨inner, path⟩ hentry
  obtain ⟨between, -, -, hleads⟩ := (View.mem_walkFrom hwalk).1 hentry
  obtain ⟨_, inner, rfl, -⟩ := hleads.seen closed_placed ⟨tokens, node, rfl, h⟩
  exact ⟨inner, rfl⟩

/-- On a walk from a block its tags are met behind it, each followed by types. -/
theorem walk_block (h : program.Viewable ids) {id : Nat} {block : Block}
    (hblock : program.block? id = some block)
    (hwalk : program.view.walkFrom (levels + 2) (.block id) above = .ok met) :
    ∃ walks, met = (.block id, above) :: walks.flatten ∧
      List.Forall₂ (fun tag walk => ∃ types, walk = (.tag tag, .block id :: above) :: types ∧
        ∀ entry ∈ types, program.IsStored entry.1) block.tags walks := by
  obtain ⟨children, walks, hchildren, hwalks, rfl⟩ := View.walkFrom_succ hwalk
  rw [children_block hblock] at hchildren
  cases hchildren
  have hkeys : ∀ tag ∈ block.tags, ∀ key, tag.typeKey = some key →
      key < program.types.slots.size := h.keys id block hblock
  refine ⟨walks, rfl, ?_⟩
  refine ((forall₂_and_left _ _).2
    ⟨hkeys, forall₂_map_left_iff.1 hwalks⟩).imp fun tag walk ⟨hkey, hwalk⟩ => ?_
  obtain ⟨types, below, htypes, hbelow, rfl⟩ := View.walkFrom_succ hwalk
  refine ⟨_, rfl, ?_⟩
  rintro ⟨inner, path⟩ hentry
  obtain ⟨walk, hmem, hentry⟩ := mem_flatten.1 hentry
  obtain ⟨child, hchild, hmet⟩ := exists_mem_of_forall₂ hbelow hmem
  obtain ⟨between, -, -, hleads⟩ := (View.mem_walkFrom hmet).1 hentry
  obtain ⟨stored, hstored, hforall⟩ := children_tag hkey
  rw [htypes] at hstored
  cases hstored
  obtain ⟨key, -, htype⟩ := exists_mem_of_forall₂ hforall hchild
  exact hleads.seen (closed_isStored h.types) (htype.isStored h.types)

/-- What a query finds, given what its selectors select below the root. -/
theorem query_eq_ok (h : program.Viewable ids) {text : String} {selectors : List Selector}
    {q : Value → List Value → Bool} {select : Value → List Value} {children values : List Value}
    (hread : Selector.read text.toList = .ok selectors)
    (hq : ∀ value path, program.IsAmong ids value →
      program.view.Leads (.node program.root) path value →
      Selector.selectsSome program.view selectors value path none = .ok (q value path))
    (hroot : q (.node program.root) [] = false)
    (hchildren : program.view.children (.node program.root) = .ok children)
    (hselect : ∀ child ∈ children, ∀ levels walk,
      program.view.walkFrom (levels + 2) child [.node program.root] = .ok walk →
        (walk.filter fun entry => q entry.1 entry.2).map Prod.fst = select child)
    (hvalues : children.flatMap select = values)
    (hapart : values.Pairwise fun first second => second.same first = false) :
    program.query text = .ok values := by
  have hamong : program.IsAmong ids (.node program.root) := .inl rfl
  obtain ⟨met, hmet, hmem, -⟩ := walk_spec h hamong
  refine bind_eq_ok.2 ⟨_, mapError_eq_ok.2 hread, mapError_eq_ok.2 ?_⟩
  refine bind_eq_ok.2 ⟨met, hmet, ?_⟩
  have hselects : ∀ entry ∈ met, Selector.selectsSome program.view selectors entry.1 entry.2 none =
      .ok (q entry.1 entry.2) := by
    rintro ⟨value, path⟩ hentry
    have hleads := ((hmem value path).1 hentry).2
    exact hq value path (hleads.seen (closed_isAmong h) hamong) hleads
  have hfound : (met.filter fun entry => q entry.1 entry.2).map Prod.fst = values := by
    obtain ⟨others, walks, hothers, hwalks, rfl⟩ := View.walkFrom_succ hmet
    rw [hchildren] at hothers
    cases hothers
    rw [filter_cons_of_neg (by simp [hroot]), ← hvalues]
    refine View.filter_flatten ?_
    exact ((forall₂_and_left _ _).2 ⟨hselect, hwalks⟩).imp
      fun child walk ⟨hchild, hwalk⟩ => hchild _ walk hwalk
  rw [View.collect_filter [] hselects, View.collect_eq_map, hfound]
  · rintro ⟨value, path⟩ hentry
    obtain ⟨hmem, htrue⟩ := mem_filter.1 hentry
    rw [hselects _ hmem, htrue]
  · exact hfound ▸ hapart
  · exact fun _ _ => nofun

/-- The tags of a block. -/
def tagsIn (program : Program) : Value → List Value
  | .block id => ((program.block? id).toList.flatMap Block.tags).map .tag
  | _ => []

/-- On a walk from a statement or a block, blocks and tags are met where it starts and right below,
if no node and no type is asked for. -/
theorem filter_walk (h : program.Viewable ids) {q : Value → List Value → Bool}
    (hnode : ∀ node path, q (.node node) path = false)
    (htype : ∀ node path, q (.type node) path = false) {child : Value}
    (hchild : (∃ tokens node, child = .node node ∧ Placed tokens node) ∨
      ∃ id, child = .block id ∧ ids id)
    (hwalk : program.view.walkFrom (levels + 2) child above = .ok met) :
    (met.filter fun entry => q entry.1 entry.2).map Prod.fst =
      [child].filter (q · above) ++ (program.tagsIn child).filter (q · (child :: above)) := by
  rcases hchild with ⟨tokens, node, rfl, hplaced⟩ | ⟨id, rfl, hid⟩
  · rw [filter_eq_nil_iff.2 fun entry hentry => ?_, filter_singleton, hnode]
    · rfl
    · obtain ⟨inner, hinner⟩ := exists_node_of_mem_walk hplaced hwalk entry hentry
      rw [hinner, hnode]
      exact Bool.false_ne_true
  · obtain ⟨block, hblock⟩ := h.blocks id hid
    obtain ⟨walks, rfl, hwalks⟩ := walk_block h hblock hwalk
    have htags : List.Forall₂ (fun value walk => (walk.filter fun entry => q entry.1 entry.2).map
        Prod.fst = [value].filter (q · (.block id :: above))) (block.tags.map .tag) walks := by
      refine forall₂_map_left_iff.2 (hwalks.imp ?_)
      rintro tag _ ⟨types, rfl, htypes⟩
      rw [filter_cons, filter_eq_nil_iff.2 fun entry hentry => ?_, filter_singleton]
      · cases q (.tag tag) (.block id :: above) <;> rfl
      · obtain ⟨node, hnode, -⟩ := htypes entry hentry
        rw [hnode, htype]
        exact Bool.false_ne_true
    have hrest := View.filter_flatten htags
    rw [← filter_flatMap, flatMap_singleton'] at hrest
    rw [filter_cons, filter_singleton, tagsIn, hblock, Option.toList_some,
      flatMap_singleton, ← hrest]
    cases q (.block id) above <;> rfl

end

/-- The value is a typedef right below a block with `@local`. -/
def isLocalTypedef (program : Program) (value : Value) : List Value → Bool
  | parent :: _ => isTagWith (.equals "typedef") value &&
      isBlockWith (program.hasTagWith (.equals "local")) parent
  | [] => false

/-- What is selected as a local typedef. -/
theorem selects_localTypedef {ids : Nat → Prop} (h : program.Viewable ids) {value : Value}
    {path : List Value} (hseen : program.IsAmong ids value)
    (hleads : program.view.Leads (.node program.root) path value) :
    Selector.selectsSome program.view
      [.joined .child (.allOf [.kind "DocBlock", Selector.havingTag (.equals "local")])
        (Selector.tagWith (.equals "typedef"))] value path none =
      .ok (program.isLocalTypedef value path) := by
  cases path with
  | nil =>
    cases hleads.eq_of_nil
    rw [Selector.selectsSome_singleton, Selector.selects, selects_tagWith h _ hseen]
    rfl
  | cons parent rest =>
    obtain ⟨children, hparent, -, -⟩ := hleads.parent
    have hroot : program.IsAmong ids (.node program.root) := .inl rfl
    refine Selector.selectsSome_singleton.trans
      (Selector.selects_child (selects_tagWith h _ hseen _ _) fun _ => ?_)
    exact selects_block h (hparent.seen (closed_isAmong h) hroot) fun id hid =>
      selectsAll_havingTag h _ hid _ _

end Program

end DocTypes
