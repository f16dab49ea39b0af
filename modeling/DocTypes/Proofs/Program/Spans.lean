import DocTypes.Proofs.Print.Copy
import DocTypes.Proofs.Program.Read

/-!
# Spans of a program that was read

Printing from a source, attaching blocks to nodes and locating faults all rely on where the nodes of
a tree say that they stand. `Program.read_spans` is what a program that was read can be relied on
for: its nodes reach from token to token, lie inside each other, and follow each other in the order
in which they are printed.
-/

namespace DocTypes

open List

namespace Node

/-- A node stands in the tree below another: it is that node, or right below one in the tree. -/
inductive Within (root : Node) : Node → Prop where
  | root : Within root root
  | child {node child : Node} (above : Within root node) (mem : child ∈ node.childNodes) :
    Within root child

/-- One node ends before another starts, or they start together. -/
def Before (node next : Node) : Prop :=
  ∃ span span', node.span = some span ∧ next.span = some span' ∧ span.Before span'

/-- A node stands in its place among tokens, with its children in their places in it. -/
structure InPlace (tokens : List Token) (source : PrintSource) (node : Node) : Prop where
  bounds : node.kind ≠ .program → node.kind ≠ .templateElement → ∃ span, node.span = some span ∧
    TokenStarts tokens span.start ∧ TokenStops tokens span.stop ∧ span.start < span.stop
  inside : ∀ child ∈ node.childNodes, ∃ outer inner, node.span = some outer ∧
    child.span = some inner ∧ inner.Inside outer
  /-- In the order in which they are printed, the children follow each other. -/
  follows : ∀ context, ∃ children : List Node,
    source.children node context = .ok (children.map .node) ∧
    children.Perm node.childNodes ∧ children.IsChain Before

end Node

section
variable {nodes : List Node}

/-- Values that are nodes or holes, without the holes. -/
theorem filter_isNull {values : List Value}
    (h : ∀ value ∈ values, value = .null ∨ ∃ child, value = .node child) :
    values.filter (fun value => !value.isNull) = (values.filterMap Value.node?).map .node := by
  induction values with
  | nil => rfl
  | cons value rest ih =>
    obtain ⟨hvalue, hrest⟩ := forall_mem_cons.1 h
    rcases hvalue with rfl | ⟨child, rfl⟩
    · exact ih hrest
    · exact congrArg (.node child :: ·) (ih hrest)

/-- Nodes whose spans follow each other do so. -/
theorem isChain_before (hspans : ∀ node ∈ nodes, ∃ span, node.span = some span)
    (h : (nodes.filterMap Node.span).IsChain Span.Before) : nodes.IsChain Node.Before := by
  have hmap : nodes.filterMap Node.span = nodes.map fun node => node.span.getD ⟨0, 0⟩ := by
    rw [← filterMap_eq_map]
    refine filterMap_congr fun node hnode => ?_
    obtain ⟨span, hspan⟩ := hspans node hnode
    rw [Function.comp_apply, hspan, Option.getD_some]
  rw [hmap, isChain_map] at h
  refine h.imp_of_mem_imp fun node next hnode hnext hbefore => ?_
  obtain ⟨span, hspan⟩ := hspans node hnode
  obtain ⟨span', hspan'⟩ := hspans next hnext
  rw [hspan, hspan'] at hbefore
  exact ⟨span, span', hspan, hspan', hbefore⟩

/-- Where a node starts, if it has a place. -/
def Node.startKey (node : Node) : Int :=
  (node.start?.getD 0 : Nat)

/-- Nodes that are apart follow each other when they are sorted by their starts. -/
theorem isChain_sorted
    (hspans : ∀ node ∈ nodes, ∃ span, node.span = some span ∧ span.start ≤ span.stop)
    (h : (nodes.filterMap Node.span).Pairwise Span.Apart) :
    (nodes.mergeSort fun a b => a.startKey ≤ b.startKey).IsChain Node.Before := by
  have hsorted : (nodes.mergeSort fun a b => a.startKey ≤ b.startKey).Pairwise
      fun a b => decide (a.startKey ≤ b.startKey) = true := by
    refine pairwise_mergeSort (fun a b c hab hbc => ?_) (fun a b => ?_) nodes
    · simp only [decide_eq_true_eq] at *
      omega
    · simp only [Bool.or_eq_true, decide_eq_true_eq]
      omega
  have hperm := mergeSort_perm nodes fun a b => decide (a.startKey ≤ b.startKey)
  have hapart := (hperm.filterMap Node.span).pairwise_iff Or.symm |>.2 h
  rw [pairwise_filterMap] at hapart
  refine ((hsorted.and hapart).imp_of_mem fun {a b} ha hb hab => ?_).isChain
  obtain ⟨span, hspan, hle⟩ := hspans a (hperm.mem_iff.1 ha)
  obtain ⟨span', hspan', hle'⟩ := hspans b (hperm.mem_iff.1 hb)
  refine ⟨span, span', hspan, hspan', ?_⟩
  have hstarts : span.start ≤ span'.start := by
    have := of_decide_eq_true hab.1
    simpa [Node.startKey, Node.start?, hspan, hspan'] using this
  rcases hab.2 span hspan span' hspan' with hfirst | hsecond
  · exact .inl hfirst
  · exact .inr (by omega)

end

section
variable {source : PrintSource} (hextent : ∀ node, source.extent (.node node) = .ofSpan? node.span)
  {node : Node} {span : Span} (harranged : Arranged span node.childValues)
  (hturns : InTurn node.kind (spansOf node.childValues))
include harranged

/-- Each child has a span, inside that of the node. -/
theorem Arranged.exists_inside {child : Node} (h : child ∈ node.childNodes) :
    ∃ inner, child.span = some inner ∧ inner.Inside span := by
  obtain ⟨value, hvalue, hnode⟩ := mem_filterMap.1 h
  rcases harranged.nodes value hvalue with rfl | ⟨_, inner, rfl, hinner⟩
  · cases hnode
  · cases hnode
    exact ⟨inner, hinner, harranged.inside inner (mem_filterMap.2 ⟨_, h, hinner⟩)⟩

include hextent hturns

/-- The children of a node follow each other in the order in which they are printed. -/
theorem children_follow (context : PrintContext) :
    ∃ children : List Node, source.children node context = .ok (children.map .node) ∧
      children.Perm node.childNodes ∧ children.IsChain Node.Before := by
  have hvalues : node.childValues.filter (fun value => !value.isNull) =
      node.childNodes.map .node :=
    filter_isNull fun value hvalue => harranged.null_or_node hvalue
  unfold PrintSource.children
  rw [hvalues]
  split
  case isFalse hkind =>
    refine ⟨node.childNodes, rfl, .refl _, isChain_before (fun child hchild => ?_) ?_⟩
    · obtain ⟨inner, hinner, -⟩ := harranged.exists_inside hchild
      exact ⟨inner, hinner⟩
    · exact (inTurn_of_ne (by simpa using hkind)).1 hturns
  case isTrue hkind =>
    rw [InTurn, if_pos (by simpa using hkind)] at hturns
    have hchain := isChain_sorted (fun child hchild => ?_) hturns
    · refine ⟨_, ?_, mergeSort_perm _ _, hchain⟩
      have hsort : (node.childNodes.map fun child => (Value.node child, child.startKey)).mergeSort
          (fun a b => decide (a.2 ≤ b.2)) =
          (node.childNodes.mergeSort fun a b => a.startKey ≤ b.startKey).map
            fun child => (Value.node child, child.startKey) :=
        (map_mergeSort (f := fun child => (Value.node child, child.startKey))
          fun _ _ _ _ => rfl).symm
      refine Printer.bind_ok (Printer.mapM_ok (forall₂_map_left_iff.2
        ((forall₂_map_right_iff (f := fun child => (Value.node child, child.startKey))).2
          (forall₂_same.2 fun child hchild => ?_)))) ?_
      · obtain ⟨inner, hinner, -⟩ := harranged.exists_inside hchild
        rw [hextent, hinner, Node.startKey, Node.start?, hinner]
        rfl
      · rw [hsort, map_map]
        rfl
    · obtain ⟨inner, hinner, hinside⟩ := harranged.exists_inside hchild
      exact ⟨inner, hinner, hinside.order⟩

end

/-- A node that is placed stands in its place. -/
theorem Placed.inPlace {tokens : List Token} {source : PrintSource}
    (hextent : ∀ node, source.extent (.node node) = .ofSpan? node.span) {node : Node}
    (h : Placed tokens node) : node.InPlace tokens source := by
  cases h with
  | @intro _ span place bounds arranged below turns =>
    refine ⟨fun _ htext => ⟨span, place, ?_⟩, fun child hchild => ?_,
      children_follow hextent arranged turns⟩
    · rw [Bounded, if_neg htext] at bounds
      exact bounds.2
    · obtain ⟨inner, hinner, hinside⟩ := arranged.exists_inside hchild
      exact ⟨span, inner, place, hinner, hinside⟩

namespace Program

/-- What stands below a program that is rooted in its source is placed. -/
theorem placed_of_within {tokens : List Token} {length : Nat} {root node : Node}
    (hroot : Rooted tokens length root) (h : root.Within node) :
    node = root ∨ Placed tokens node := by
  induction h with
  | root => exact .inl rfl
  | @child node child above mem ih =>
    rcases ih with rfl | hplaced
    · exact .inr (hroot.below child mem)
    · cases hplaced with
      | intro _ _ _ below _ => exact .inr (below child mem)

/-- Every node of a program that was read stands in its place: between tokens, inside the node above
it, and behind the node that is printed before it. -/
theorem read_spans {source : List Char} {program : Program}
    (h : Program.read source = .ok program) :
    ∃ lexed, lex source = .ok lexed ∧ ∀ documented node, program.root.Within node →
      node.InPlace lexed.tokens (program.printSource (some source) documented) := by
  obtain ⟨pieces, lexed, hfrom⟩ := readFrom_of_read h
  refine ⟨lexed, hfrom.lexing, fun documented node hnode => ?_⟩
  have hrooted := hfrom.rooted
  have hextent : ∀ node, (program.printSource (some source) documented).extent (.node node) =
      .ofSpan? node.span := fun _ => rfl
  rcases placed_of_within hrooted hnode with rfl | hplaced
  · refine ⟨fun hprogram => absurd hrooted.kind hprogram, fun child hchild => ?_,
      children_follow hextent hrooted.arranged (hrooted.kind ▸ hrooted.turns)⟩
    obtain ⟨inner, hinner, hinside⟩ := hrooted.arranged.exists_inside hchild
    exact ⟨_, inner, hrooted.span, hinner, hinside⟩
  · exact hplaced.inPlace hextent

/-- A source with a template, a pattern whose key is its value, a static block and a class that is
named twice. -/
def nestedSpans : List Char :=
  ("(\x7b x = `a$\x7bb\x7d$\x7bc\x7d` \x7d = y); " ++
    "class A \x7b static \x7b f(); \x7d \x7d export \x7b A \x7d;").toList

theorem read_spans_nested : ∃ program, Program.read nestedSpans = .ok program ∧
    ∃ lexed, lex nestedSpans = .ok lexed ∧ ∀ documented node, program.root.Within node →
      node.InPlace lexed.tokens (program.printSource (some nestedSpans) documented) := by
  have hok : ((Program.read nestedSpans).toOption.any fun program =>
      program.root.childNodes.length == 3) = true := by
    decide +kernel
  obtain ⟨program, hread, -⟩ := exists_eq_ok_of_any hok
  exact ⟨program, hread, read_spans hread⟩

end Program

end DocTypes
