import DocTypes.Doc.Attach
import DocTypes.Proofs.Reader.Program

/-!
# Linking keeps nodes in their places

After a source was read its nodes are told which block documents them and which node stands above
them. Either is a change of every node that leaves its kind, its span and what stands below it as
they are (`Relinks`), and such a change keeps a tree rooted in its source (`rooted_mapNodes`).
-/

namespace DocTypes

open List

/-- The same value, or the same node with another parent. -/
def Adopted (value value' : Value) : Prop :=
  value' = value ∨ ∃ child parent, value = .node child ∧ value' = .node (child.withParent parent)

/-- The same value, or the same nodes with other parents. -/
def Relinked (value value' : Value) : Prop :=
  Adopted value value' ∨
    ∃ items items', value = .list items ∧ value' = .list items' ∧ List.Forall₂ Adopted items items'

theorem Relinked.refl (value : Value) : Relinked value value :=
  .inl (.inl rfl)

/-- The items of a value stay what they are but for their parents. -/
theorem Relinked.flat {value value' : Value} (h : Relinked value value') :
    List.Forall₂ Adopted value.flat value'.flat := by
  rcases h with (rfl | ⟨child, parent, rfl, rfl⟩) | ⟨items, items', rfl, rfl, hitems⟩
  · exact forall₂_same.2 fun _ _ => .inl rfl
  · exact .cons (.inr ⟨child, parent, rfl, rfl⟩) .nil
  · exact hitems

/-- A change of nodes that only tells them to whom they belong. -/
structure Relinks (f : Node → Node) : Prop where
  kind : ∀ node, (f node).kind = node.kind
  span : ∀ node, (f node).span = node.span
  fields : ∀ node field, Option.Rel Relinked (node.get? field) ((f node).get? field)

section
variable {f : Node → Node} (hf : Relinks f) (node : Node)
include hf

theorem Relinks.get (field : Field) : Relinked (node.get field) ((f node).get field) := by
  have hfield := hf.fields node field
  rw [Node.get, Node.get]
  generalize node.get? field = value?, (f node).get? field = value?' at hfield ⊢
  cases hfield with
  | none => exact .refl _
  | some h => exact h

theorem Relinks.children : List.Forall₂ Adopted node.childValues (f node).childValues := by
  rw [Node.childValues, Node.childValues, hf.kind]
  exact rel_flatMap (forall₂_same.2 fun _ _ => rfl)
    fun field field' hfield => hfield ▸ (hf.get node field).flat

theorem Relinks.unset {field : Field} (h : node.get? field = none) :
    (f node).get? field = none := by
  have hfield := hf.fields node field
  rw [h] at hfield
  generalize (f node).get? field = value? at hfield ⊢
  cases hfield
  rfl

/-- A list stays a list. -/
theorem Relinks.list {field : Field} {items : List Value} (h : node.get field = .list items) :
    ∃ items', (f node).get field = .list items' := by
  have hfield := hf.get node field
  rw [h] at hfield
  rcases hfield with (heq | ⟨_, _, ⟨⟩, _⟩) | ⟨_, items', _, heq, _⟩
  · exact ⟨items, heq⟩
  · exact ⟨items', heq⟩

end

/-- Naming the blocks of nodes is a relinking. -/
theorem relinks_of_withDoc {f : Node → Node} (h : ∀ node, ∃ doc, f node = node.withDoc doc) :
    Relinks f := by
  constructor
  all_goals
    intro node
    obtain ⟨doc, hdoc⟩ := h node
    obtain ⟨kind, id, span, parent, doc', fields⟩ := node
    rw [hdoc]
  · rfl
  · rfl
  · intro field
    change Option.Rel Relinked (List.lookup field fields) (List.lookup field fields)
    cases List.lookup field fields with
    | none => exact .none
    | some value => exact .some (.refl value)

/-- A change of values that keeps the names of fields changes what is looked up. -/
theorem lookup_map_of_fst {change : Field × Value → Field × Value}
    (h : ∀ pair, (change pair).1 = pair.1) (field : Field) (fields : List (Field × Value)) :
    (fields.map change).lookup field =
      (fields.lookup field).map fun value => (change (field, value)).2 := by
  induction fields with
  | nil => rfl
  | cons pair rest ih =>
    rw [map_cons, lookup_cons, lookup_cons, h, ih]
    split
    case h_1 heq =>
      rw [beq_iff_eq.1 heq]
      rfl
    case h_2 => rfl

/-- Telling the nodes right below a node who stands above them is a relinking. -/
theorem relinks_adopt : Relinks Node.adopt := by
  constructor
  all_goals
    intro node
    obtain ⟨kind, id, span, parent, doc, fields⟩ := node
  · rfl
  · rfl
  · intro field
    dsimp only [Node.adopt, Node.get?, Node.withFields, Node.fields]
    rw [lookup_map_of_fst]
    · cases List.lookup field fields with
      | none => exact .none
      | some value =>
        refine .some ?_
        dsimp only
        split
        case isFalse => exact .refl value
        case isTrue =>
          cases value with
          | list items =>
            refine .inr ⟨items, _, rfl, rfl, ?_⟩
            refine forall₂_map_right_iff.2 (forall₂_same.2 fun item _ => ?_)
            cases item with
            | node child => exact .inr ⟨child, _, rfl, rfl⟩
            | _ => exact .inl rfl
          | node child => exact .inl (.inr ⟨child, _, rfl, rfl⟩)
          | _ => exact .refl _
    · intro pair
      split
      · cases pair.2 <;> rfl
      · rfl

section
variable {f : Node → Node} {tokens : List Token}

/-- What was mapped over fields is mapped over each. -/
theorem lookup_mapFields (field : Field) (fields : List (Field × Value)) :
    (Node.mapFields f fields).lookup field = (fields.lookup field).map (Node.mapValue f) := by
  induction fields with
  | nil => rfl
  | cons pair rest ih =>
    rw [Node.mapFields, lookup_cons, lookup_cons, ih]
    split <;> rfl

/-- What was mapped over items is mapped over each. -/
theorem mapItems_eq_map (items : List Value) :
    Node.mapItems f items = items.map (Node.mapValue f) := by
  induction items with
  | nil => rfl
  | cons item rest ih => rw [Node.mapItems, ih, map_cons]

/-- The items of a value that was mapped. -/
theorem flat_mapValue (value : Value) :
    (Node.mapValue f value).flat = value.flat.map (Node.mapValue f) := by
  cases value with
  | list items => exact mapItems_eq_map items
  | _ => rfl

/-- A field of a node whose fields were mapped. -/
theorem get_mapFields (kind : Kind) (id : Nat) (span : Option Span) (parent doc : Option Nat)
    (fields : List (Field × Value)) (field : Field) :
    (Node.mk kind id span parent doc (Node.mapFields f fields)).get field =
      Node.mapValue f ((Node.mk kind id span parent doc fields).get field) := by
  dsimp only [Node.get, Node.get?, Node.fields]
  rw [lookup_mapFields]
  cases List.lookup field fields <;> rfl

/-- The children of a node whose fields were mapped. -/
theorem childValues_mapFields (kind : Kind) (id : Nat) (span : Option Span)
    (parent doc : Option Nat) (fields : List (Field × Value)) :
    (Node.mk kind id span parent doc (Node.mapFields f fields)).childValues =
      (Node.mk kind id span parent doc fields).childValues.map (Node.mapValue f) := by
  rw [Node.childValues, Node.childValues, map_flatMap]
  refine congrArg (List.flatMap · _) (funext fun field => ?_)
  rw [← flat_mapValue, get_mapFields]

/-- A node keeps its kind and its span when it and all below it are relinked. -/
theorem kind_span_mapNodes (hf : Relinks f) (node : Node) :
    (node.mapNodes f).kind = node.kind ∧ (node.mapNodes f).span = node.span := by
  obtain ⟨kind, id, span, parent, doc, fields⟩ := node
  rw [Node.mapNodes, hf.kind, hf.span]
  exact ⟨rfl, rfl⟩

/-- Another parent does not move a node. -/
theorem placed_withParent {node : Node} (h : Placed tokens node) (parent : Option Nat) :
    Placed tokens (node.withParent parent) := by
  obtain ⟨kind, id, span, parent', doc, fields⟩ := node
  exact h.recast rfl (.of_eq rfl) (forall₂_same.2 fun _ _ => .inl rfl)

/-- Adopted values stand for those that they were, if these are placed. -/
theorem stands_of_adopted {values values' : List Value} (h : List.Forall₂ Adopted values values')
    (hplaced : ∀ child ∈ values.filterMap Value.node?, Placed tokens child) :
    List.Forall₂ (Stands tokens) values values' := by
  have hmem : List.Forall₂ (fun value value' => value ∈ values ∧ Adopted value value') values
      values' :=
    (forall₂_and_left _ _).2 ⟨fun _ hmem => hmem, h⟩
  refine hmem.imp fun value value' ⟨hmem, hadopted⟩ => ?_
  rcases hadopted with heq | ⟨child, parent, rfl, rfl⟩
  · exact .inl heq
  · refine .inr ⟨child, _, rfl, rfl, ?_, placed_withParent (hplaced child ?_) parent⟩
    · obtain ⟨kind, id, span, parent', doc, fields⟩ := child
      rfl
    · exact mem_filterMap.2 ⟨_, hmem, rfl⟩

/-- Values that are mapped stand for those that they were, if what stands below is placed. -/
theorem stands_mapValue (hf : Relinks f) {span : Span} {values : List Value}
    (harranged : Arranged span values)
    (hplaced : ∀ child ∈ values.filterMap Value.node?, Placed tokens (child.mapNodes f)) :
    List.Forall₂ (Stands tokens) values (values.map (Node.mapValue f)) := by
  refine forall₂_map_right_iff.2 (forall₂_same.2 fun value hmem => ?_)
  rcases harranged.nodes value hmem with rfl | ⟨child, inner, rfl, _⟩
  · exact .inl rfl
  · refine .inr ⟨child, _, rfl, rfl, (kind_span_mapNodes hf child).2, ?_⟩
    exact hplaced child (mem_filterMap.2 ⟨_, hmem, rfl⟩)

/-- A node that is placed stays so when it and all below it are relinked. -/
theorem placed_mapNodes (hf : Relinks f) {node : Node} (h : Placed tokens node) :
    Placed tokens (node.mapNodes f) := by
  induction h with
  | @intro node span place bounds arranged below turns ih =>
    obtain ⟨kind, id, span', parent, doc, fields⟩ := node
    have hmapped : Placed tokens (.mk kind id span' parent doc (Node.mapFields f fields)) := by
      refine (Placed.intro place bounds arranged below turns).recast rfl (.of_eq rfl) ?_
      rw [childValues_mapFields]
      exact stands_mapValue hf arranged ih
    rw [Node.mapNodes]
    refine hmapped.recast (hf.span _) (.of_eq (hf.kind _)) ?_
    cases hmapped with
    | intro _ _ _ below' => exact stands_of_adopted (hf.children _) below'

/-- A program that is rooted in its source stays so when it and all below it are relinked. -/
theorem rooted_mapNodes (hf : Relinks f) {length : Nat} {root : Node}
    (h : Rooted tokens length root) : Rooted tokens length (root.mapNodes f) := by
  have hkept := kind_span_mapNodes hf root
  obtain ⟨hkind, hspan, ⟨items, hbody⟩, hunset, harranged, hbelow, hturns⟩ := h
  obtain ⟨kind, id, span, parent, doc, fields⟩ := root
  have hmapped := stands_mapValue hf harranged fun child hchild =>
    placed_mapNodes hf (hbelow child hchild)
  rw [← childValues_mapFields] at hmapped
  have hbelow' := Stands.placed hmapped hbelow
  have hadopted := stands_of_adopted (hf.children _) hbelow'
  refine ⟨hkept.1.trans hkind, hkept.2.trans hspan, ?_, ?_,
    (harranged.stands hmapped).stands hadopted, Stands.placed hadopted hbelow', ?_⟩
  · have hmapped : (Node.mk kind id span parent doc (Node.mapFields f fields)).get .body =
        .list (Node.mapItems f items) := by
      rw [get_mapFields, hbody, Node.mapValue]
    exact hf.list _ hmapped
  · refine hf.unset _ ?_
    exact (lookup_mapFields _ _).trans (congrArg (Option.map _) hunset)
  · rw [Node.mapNodes, spansOf, Stands.spans_eq hadopted, Stands.spans_eq hmapped]
    exact hturns

end

end DocTypes
