import DocTypes.Proofs.Program.View
import DocTypes.Proofs.Selector.Depth
import DocTypes.Proofs.TypeExpr.Unfold

/-!
# How deep a program is

A walk through a program is as deep as its syntax is high and there are slots of types, and some
levels for blocks and tags. No path from the root is longer, if types are trees (`shallow_root`).
-/

namespace DocTypes

open List

namespace Program

variable {program : Program}

/-- A type is as deep as its tree. -/
theorem within_type (h : program.types.Closed) : ∀ {depth key : Nat} {node : TypeNode},
    (program.types.treeTo depth key).isSome → program.types.get? key = some node →
      program.view.Within depth (.type node) := by
  intro depth
  induction depth with
  | zero => exact fun htree => nomatch htree
  | succ depth ih =>
    intro key node htree hnode
    rw [Arena.treeTo, hnode] at htree
    obtain ⟨children, hchildren, hall⟩ := children_type (h.parts key node hnode)
    refine View.within_succ hchildren fun child hchild => ?_
    obtain ⟨part, hpart, node', hnode', rfl⟩ := exists_mem_of_forall₂ hall hchild
    exact ih (Arena.isSome_assemble.1 htree part hpart) hnode'

/-- A placed node is as deep as it is high. -/
theorem within_node {tokens : List Token} : ∀ (height : Nat) {node : Node}, Placed tokens node →
    node.height ≤ height → program.view.Within height (.node node) := by
  intro height
  induction height with
  | zero => exact fun {node} _ hle => absurd node.height_pos (Nat.not_lt.2 hle)
  | succ height ih =>
    intro node hplaced hle
    refine View.within_succ (children_node hplaced) fun child hchild => ?_
    cases hplaced with
    | intro place bounds arranged below =>
    have hmem := (mem_filter.1 hchild).1
    have hlower := Node.valueHeight_lt_height hmem
    rcases arranged.null_or_node hmem with rfl | ⟨inner, rfl⟩
    · exact absurd (mem_filter.1 hchild).2 (by decide)
    · change inner.height < node.height at hlower
      exact ih (below inner (mem_filterMap.2 ⟨_, hmem, rfl⟩)) (by omega)

section
variable {ids : Nat → Prop} (h : program.Viewable ids) (hgrounded : program.types.Grounded)
include h hgrounded

/-- A block has two levels more than its types. -/
theorem within_block {id : Nat} (hid : ids id) :
    program.view.Within (program.types.slots.size + 2) (.block id) := by
  obtain ⟨block, hblock⟩ := h.blocks id hid
  refine View.within_succ (children_block hblock) (forall_mem_map.2 fun tag htag => ?_)
  have hkeys := h.keys id block hblock tag htag
  obtain ⟨children, hchildren, hall⟩ := children_tag hkeys
  refine View.within_succ hchildren fun child hchild => ?_
  obtain ⟨top, htop, node, hnode, rfl⟩ := exists_mem_of_forall₂ hall hchild
  exact within_type h.types (hgrounded top (hkeys top (Option.mem_toList.1 htop))) hnode

/-- No path from the root is as long as the bound. -/
theorem shallow_root : program.view.Shallow (.node program.root) := by
  obtain ⟨children, hchildren, hkinds⟩ := h.children
  refine View.within_succ hchildren fun child hchild => ?_
  rcases hkinds child hchild with ⟨tokens, node, rfl, hplaced⟩ | ⟨id, rfl, hid⟩
  · have hlower : node.height < program.root.height :=
      Node.valueHeight_lt_height (h.nodes children hchildren node hchild)
    refine within_node _ hplaced ?_
    omega
  · exact (within_block h hgrounded hid).mono (by omega)

end

/-- Nothing stands below a hole. -/
theorem shallow_null {value : Value} (h : value.isNull = true) : program.view.Shallow value := by
  cases value with
  | null =>
    have hnone : (childNames (Value.null.kindText?.getD "")).filterMap
        (program.attribute? .null) = [] := filterMap_eq_nil_iff.2 fun _ _ => rfl
    have hheld : program.held .null = .ok [] := by
      rw [held, hnone]
      rfl
    have hwithin : program.view.Within 1 .null :=
      View.within_succ (bind_eq_ok.2 ⟨[], hheld, rfl⟩) (forall_mem_nil _)
    refine hwithin.mono ?_
    change 1 ≤ program.levels
    rw [levels]
    omega
  | _ => cases h

end Program

end DocTypes
