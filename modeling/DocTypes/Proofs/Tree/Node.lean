import DocTypes.Tree.Node

/-!
# Fields and heights of nodes

What a node's fields hold after one of them was set; and what stands below a node is lower than the
node.
-/

namespace DocTypes

open List

variable {field other : Field} {value : Value} {node : Node}

/-- Setting a field changes no other one. -/
theorem lookup_setField_of_ne (hne : other ≠ field) (fields : List (Field × Value)) :
    (fields.map fun f => if f.1 == field then (field, value) else f).lookup other =
      fields.lookup other := by
  induction fields with
  | nil => rfl
  | cons pair rest ih =>
    rw [map_cons]
    by_cases hpair : pair.1 = field
    · have hother : (other == field) = false := beq_eq_false_iff_ne.2 hne
      rw [if_pos (beq_iff_eq.2 hpair), lookup_cons, lookup_cons, hpair, hother, ih]
    · rw [if_neg (by simpa using hpair), lookup_cons, lookup_cons, ih]

/-- A field that was set has the value it was set to. -/
theorem lookup_setField_self {fields : List (Field × Value)} (h : (fields.lookup field).isSome) :
    (fields.map fun f => if f.1 == field then (field, value) else f).lookup field =
      some value := by
  induction fields with
  | nil => cases h
  | cons pair rest ih =>
    rw [map_cons]
    by_cases hpair : pair.1 = field
    · rw [if_pos (beq_iff_eq.2 hpair), lookup_cons_self]
    · have hne : (field == pair.1) = false := beq_eq_false_iff_ne.2 (Ne.symm hpair)
      rw [lookup_cons, hne] at h
      rw [if_neg (by simpa using hpair), lookup_cons, hne]
      exact ih h

section
variable (h : (node.get? field).isSome)
include h

/-- A field that had a value has the one it was set to. -/
theorem get?_set_self : (node.set field value).get? field = some value := by
  obtain ⟨kind, id, span, parent, doc, fields⟩ := node
  rw [Node.set, if_pos h]
  exact lookup_setField_self h

/-- Other fields keep their values. -/
theorem get?_set_of_ne (hne : other ≠ field) :
    (node.set field value).get? other = node.get? other := by
  obtain ⟨kind, id, span, parent, doc, fields⟩ := node
  rw [Node.set, if_pos h]
  exact lookup_setField_of_ne hne fields

theorem get_set_self : (node.set field value).get field = value := by
  rw [Node.get, get?_set_self h]
  rfl

theorem get_set_of_ne (hne : other ≠ field) :
    (node.set field value).get other = node.get other := by
  rw [Node.get, get?_set_of_ne h hne, Node.get]

end

/-- A field that holds a list is set. -/
theorem Node.get?_of_get_list {items : List Value} (h : node.get field = .list items) :
    node.get? field = some (.list items) := by
  rw [Node.get] at h
  cases hsome : node.get? field with
  | none => rw [hsome] at h; cases h
  | some value => rw [hsome] at h; exact congrArg some h

/-- A node keeps its kind and its span when a field is set. -/
theorem kind_span_set (node : Node) (field : Field) (value : Value) :
    (node.set field value).kind = node.kind ∧ (node.set field value).span = node.span := by
  obtain ⟨kind, id, span, parent, doc, fields⟩ := node
  rw [Node.set]
  split <;> exact ⟨rfl, rfl⟩

/-- The children of a program are its statements. -/
theorem childValues_of_body {root : Node} {items : List Value} (hkind : root.kind = .program)
    (hbody : root.get .body = .list items) : root.childValues = items := by
  rw [Node.childValues, hkind]
  change (root.get .body).flat ++ [] = items
  rw [hbody, append_nil]
  rfl

namespace Node

theorem height_pos (node : Node) : 0 < node.height := by
  obtain ⟨kind, id, span, parent, doc, fields⟩ := node
  exact Nat.succ_pos _

variable {value : Value}

/-- A field is no higher than all fields. -/
theorem valueHeight_le_fieldsHeight {field : Field} :
    ∀ {fields : List (Field × Value)}, (field, value) ∈ fields →
      valueHeight value ≤ fieldsHeight fields
  | (_, _) :: _, .head _ => Nat.le_max_left _ _
  | (_, _) :: _, .tail _ h => Nat.le_trans (valueHeight_le_fieldsHeight h) (Nat.le_max_right _ _)

/-- An item is no higher than all items. -/
theorem valueHeight_le_itemsHeight :
    ∀ {items : List Value}, value ∈ items → valueHeight value ≤ itemsHeight items
  | _ :: _, .head _ => Nat.le_max_left _ _
  | _ :: _, .tail _ h => Nat.le_trans (valueHeight_le_itemsHeight h) (Nat.le_max_right _ _)

/-- What stands in a value is no higher. -/
theorem valueHeight_le_of_mem_flat {inner : Value} (h : inner ∈ value.flat) :
    valueHeight inner ≤ valueHeight value := by
  cases value with
  | list items => exact valueHeight_le_itemsHeight h
  | _ =>
    cases mem_singleton.1 h
    exact Nat.le_refl _

/-- What stands in a field is lower than the node. -/
theorem valueHeight_lt_of_get? {node : Node} {field : Field} (h : node.get? field = some value) :
    valueHeight value < node.height := by
  obtain ⟨kind, id, span, parent, doc, fields⟩ := node
  obtain ⟨before, after, hfields, -⟩ := lookup_eq_some_iff.1 h
  have hmem : (field, value) ∈ fields := by
    rw [show fields = before ++ (field, value) :: after from hfields]
    exact mem_append_right _ (.head _)
  exact Nat.lt_succ_of_le (valueHeight_le_fieldsHeight hmem)

/-- A child is lower than its node. -/
theorem valueHeight_lt_height {node : Node} (h : value ∈ node.childValues) :
    valueHeight value < node.height := by
  obtain ⟨field, _, hmem⟩ := mem_flatMap.1 h
  refine Nat.lt_of_le_of_lt (valueHeight_le_of_mem_flat hmem) ?_
  rw [get]
  cases hget : node.get? field with
  | none => exact node.height_pos
  | some value => exact valueHeight_lt_of_get? hget

end Node

end DocTypes
