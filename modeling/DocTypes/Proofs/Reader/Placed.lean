import DocTypes.Tree.Reader
import Mathlib.Data.List.Chain

/-!
# Where nodes stand in the source

A node that was read stands between two tokens: it starts where a token starts and ends where a
token ends, and only the text of a template lies inside a token. What stands below it lies inside
it, one child after the other. `Placed` says this of a node and of all below it.

While a node is read its children are collected in the order of the source. `Row` says of values
that they are nodes that stand one after the other between two offsets, with holes between them
perhaps, and `placed_of_row` closes a node over such a row.
-/

namespace DocTypes

/-- Does a token start at the offset? -/
def TokenStarts (tokens : List Token) (offset : Nat) : Prop :=
  ∃ token ∈ tokens, token.span.start = offset

/-- Does a token end at the offset? -/
def TokenStops (tokens : List Token) (offset : Nat) : Prop :=
  ∃ token ∈ tokens, token.span.stop = offset

/-- One span lies inside another. -/
structure Span.Inside (inner outer : Span) : Prop where
  start : outer.start ≤ inner.start
  order : inner.start ≤ inner.stop
  stop : inner.stop ≤ outer.stop

/-- The kinds of nodes that stand below a program for whole tokens: all that are known but the text
of a template. -/
def Kind.isForm : Kind → Bool
  | .program | .templateElement | .other _ | .unnamed => false
  | _ => true

/-- Where a node of a kind may start and end: between tokens, or inside one if it is the text of a
template. -/
def Bounded (tokens : List Token) (kind : Kind) (span : Span) : Prop :=
  if kind = .templateElement then
    ∃ token ∈ tokens, token.kind = .template ∧ token.span.start < span.start ∧
      span.start ≤ span.stop ∧ span.stop < token.span.stop
  else kind.isForm = true ∧ TokenStarts tokens span.start ∧ TokenStops tokens span.stop ∧
    span.start < span.stop

/-- The children of a node as they are arranged in its span: each has a place, inside it. -/
structure Arranged (span : Span) (values : List Value) : Prop where
  nodes : ∀ value ∈ values, value = .null ∨ ∃ child span, value = .node child ∧
    child.span = some span
  inside : ∀ inner ∈ (values.filterMap Value.node?).filterMap Node.span, inner.Inside span

/-- Two spans do not overlap. -/
def Span.Apart (a b : Span) : Prop :=
  a.stop ≤ b.start ∨ b.stop ≤ a.start

/-- One span ends before another starts, or they start together. -/
def Span.Before (a b : Span) : Prop :=
  a.stop ≤ b.start ∨ a.start = b.start

/-- The spans of the nodes among values. -/
def spansOf (values : List Value) : List Span :=
  (values.filterMap Value.node?).filterMap Node.span

/-- The spans of the children of a node of a kind follow each other. The parts of a template stand
in two lists, so only that they are apart can be said of them before they are sorted. -/
def InTurn (kind : Kind) (spans : List Span) : Prop :=
  if kind = .templateLiteral then spans.Pairwise Span.Apart else spans.IsChain Span.Before

/-- A node that stands between tokens, with its children arranged in it one after the other, and so
below it. -/
inductive Placed (tokens : List Token) : Node → Prop where
  | intro {node : Node} {span : Span} (place : node.span = some span)
    (bounds : Bounded tokens node.kind span) (arranged : Arranged span node.childValues)
    (below : ∀ child ∈ node.childNodes, Placed tokens child)
    (turns : InTurn node.kind (spansOf node.childValues)) : Placed tokens node

/-- A placed node between two offsets. -/
structure Fits (tokens : List Token) (low high : Nat) (node : Node) : Prop where
  placed : Placed tokens node
  between : ∃ span, node.span = some span ∧ low ≤ span.start ∧ span.start ≤ span.stop ∧
    span.stop ≤ high

/-- Values that are nodes, or holes, one after the other between two offsets. -/
inductive Row (tokens : List Token) : Nat → List Value → Nat → Prop where
  | nil {low high : Nat} (le : low ≤ high) : Row tokens low [] high
  | hole {low high : Nat} {rest : List Value} (row : Row tokens low rest high) :
    Row tokens low (.null :: rest) high
  | cons {low middle high : Nat} {node : Node} {rest : List Value}
    (fits : Fits tokens low middle node) (row : Row tokens middle rest high) :
    Row tokens low (.node node :: rest) high

/-- What is arranged in a span is a hole or a node. -/
theorem Arranged.null_or_node {span : Span} {values : List Value} (h : Arranged span values)
    {value : Value} (hmem : value ∈ values) : value = .null ∨ ∃ child, value = .node child := by
  rcases h.nodes value hmem with hnull | ⟨child, inner, hchild, _⟩
  · exact .inl hnull
  · exact .inr ⟨child, hchild⟩

/-- A form is of a known kind. -/
theorem Kind.known_of_isForm {kind : Kind} (h : kind.isForm = true) : kind ∈ Kind.known := by
  cases kind with
  | program | templateElement | other | unnamed => cases h
  | _ => decide

/-- A form stands between tokens. -/
theorem bounded_of_isForm {tokens : List Token} {kind : Kind} {span : Span}
    (h : kind.isForm = true) : Bounded tokens kind span ↔
      TokenStarts tokens span.start ∧ TokenStops tokens span.stop ∧ span.start < span.stop := by
  have hne : kind ≠ .templateElement := by
    rintro rfl
    cases h
  rw [Bounded, if_neg hne]
  exact and_iff_right h

theorem inTurn_nil (kind : Kind) : InTurn kind [] := by
  rw [InTurn]
  split
  · exact .nil
  · exact .nil

/-- Only in a template the order of the children is not that of their spans. -/
theorem inTurn_of_ne {kind : Kind} (h : kind ≠ .templateLiteral) {spans : List Span} :
    InTurn kind spans ↔ spans.IsChain Span.Before := by
  rw [InTurn, if_neg h]

section
variable {tokens : List Token} {low low' middle high high' : Nat} {node : Node}
  {values : List Value}

/-- A node fits between wider offsets too. -/
theorem Fits.mono (h : Fits tokens low high node) (hlow : low' ≤ low) (hhigh : high ≤ high') :
    Fits tokens low' high' node := by
  obtain ⟨span, hspan, h1, h2, h3⟩ := h.between
  exact ⟨h.placed, span, hspan, by omega, h2, by omega⟩

/-- The offsets that a node fits between are in order. -/
theorem Fits.le (h : Fits tokens low high node) : low ≤ high := by
  obtain ⟨_, _, _, _, _⟩ := h.between
  omega

/-- The offsets of a row are in order. -/
theorem Row.le (h : Row tokens low values high) : low ≤ high := by
  induction h with
  | nil le => exact le
  | hole _ ih => exact ih
  | cons fits _ ih => exact Nat.le_trans fits.le ih

/-- A row may start earlier. -/
theorem Row.mono_low (h : Row tokens low values high) (hlow : low' ≤ low) :
    Row tokens low' values high := by
  induction h with
  | nil le => exact .nil (Nat.le_trans hlow le)
  | hole _ ih => exact .hole (ih hlow)
  | cons fits row => exact .cons (fits.mono hlow (Nat.le_refl _)) row

/-- A row may end later. -/
theorem Row.mono_high (h : Row tokens low values high) (hhigh : high ≤ high') :
    Row tokens low values high' := by
  induction h with
  | nil le => exact .nil (Nat.le_trans le hhigh)
  | hole _ ih => exact .hole (ih hhigh)
  | cons fits _ ih => exact .cons fits (ih hhigh)

/-- One row after another is a row. -/
theorem Row.append {later : List Value} (h : Row tokens low values middle)
    (hlater : Row tokens middle later high) : Row tokens low (values ++ later) high := by
  induction h with
  | nil le => exact hlater.mono_low le
  | hole _ ih => exact .hole (ih hlater)
  | cons fits _ ih => exact .cons fits (ih hlater)

/-- A single node is a row. -/
theorem Fits.row (h : Fits tokens low high node) : Row tokens low [.node node] high :=
  .cons h (.nil (Nat.le_refl _))

section
variable (h : Row tokens low values high)
include h

/-- What stands in a row is a hole or a node that fits. -/
theorem Row.mem :
    ∀ value ∈ values, value = .null ∨ ∃ node, value = .node node ∧ Fits tokens low high node := by
  induction h with
  | nil => nofun
  | hole _ ih =>
    intro value hmem
    rcases List.mem_cons.1 hmem with rfl | hmem
    · exact .inl rfl
    · exact ih value hmem
  | cons fits row ih =>
    intro value hmem
    rcases List.mem_cons.1 hmem with rfl | hmem
    · exact .inr ⟨_, rfl, fits.mono (Nat.le_refl _) row.le⟩
    · rcases ih value hmem with h | ⟨node, rfl, hfits⟩
      · exact .inl h
      · exact .inr ⟨node, rfl, hfits.mono fits.le (Nat.le_refl _)⟩

/-- The spans of the nodes in a row lie between its offsets. -/
theorem Row.spans_inside : ∀ span ∈ (values.filterMap Value.node?).filterMap Node.span,
      low ≤ span.start ∧ span.start ≤ span.stop ∧ span.stop ≤ high := by
  intro span hmem
  obtain ⟨child, hchild, hspan⟩ := List.mem_filterMap.1 hmem
  obtain ⟨value, hvalue, hnode⟩ := List.mem_filterMap.1 hchild
  rcases h.mem value hvalue with rfl | ⟨node, rfl, hfits⟩
  · cases hnode
  · cases hnode
    obtain ⟨span', hspan', h1, h2, h3⟩ := hfits.between
    rw [hspan] at hspan'
    cases hspan'
    exact ⟨h1, h2, h3⟩

/-- Nodes in a row are arranged in a span around them. -/
theorem Row.arranged : Arranged ⟨low, high⟩ values where
  nodes value hmem := by
    rcases h.mem value hmem with h | ⟨node, hnode, hfits⟩
    · exact .inl h
    · obtain ⟨span, hspan, _⟩ := hfits.between
      exact .inr ⟨node, span, hnode, hspan⟩
  inside inner hmem := by
    obtain ⟨h1, h2, h3⟩ := h.spans_inside inner hmem
    exact ⟨h1, h2, h3⟩

/-- The spans of the nodes in a row stand one after the other. -/
theorem Row.pairwise : (spansOf values).Pairwise fun a b => a.stop ≤ b.start := by
  induction h with
  | nil => exact .nil
  | hole _ ih => exact ih
  | @cons low middle high node rest fits row ih =>
    obtain ⟨span, hspan, -, -, hstop⟩ := fits.between
    have hspans : spansOf (.node node :: rest) = span :: spansOf rest := by
      simp only [spansOf, List.filterMap_cons, Value.node?, hspan]
    rw [hspans, List.pairwise_cons]
    exact ⟨fun later hlater => Nat.le_trans hstop (row.spans_inside later hlater).1, ih⟩

/-- Nodes in a row follow each other, whatever node they are in. -/
theorem Row.inTurn (kind : Kind) : InTurn kind (spansOf values) := by
  rw [InTurn]
  split
  · exact h.pairwise.imp .inl
  · exact (h.pairwise.imp .inl).isChain

/-- The nodes in a row are placed. -/
theorem Row.placed : ∀ child ∈ values.filterMap Value.node?, Placed tokens child := by
  intro child hchild
  obtain ⟨value, hvalue, hnode⟩ := List.mem_filterMap.1 hchild
  rcases h.mem value hvalue with rfl | ⟨node, rfl, hfits⟩
  · cases hnode
  · cases hnode
    exact hfits.placed

end

/-- A node from the start of one token to the end of another, with its children in a row in it, is
placed. -/
theorem placed_of_row {span : Span} (hspan : node.span = some span)
    (hkind : node.kind.isForm = true) (hstart : TokenStarts tokens span.start)
    (hstop : TokenStops tokens span.stop) (hlt : span.start < span.stop)
    (hrow : Row tokens span.start node.childValues span.stop) : Placed tokens node :=
  .intro hspan ((bounded_of_isForm hkind).2 ⟨hstart, hstop, hlt⟩) hrow.arranged hrow.placed
    (hrow.inTurn _)

end

end DocTypes
