import DocTypes.Proofs.TypeExpr.Store
import DocTypes.Proofs.TypeExpr.Unfold

/-!
# Types that were stored

Types that are stored into an arena are found there as they were, in new slots that share no part
(`storing_forest`). So overwriting them changes no type that was there before.
-/

namespace DocTypes

open List

namespace Arena

variable {arena arena' arena'' : Arena} {key root : Nat} {keys keys' : List Nat} {type : TypeExpr}
  {types types' : List TypeExpr} {node : TypeNode} {new new' : List TypeNode}

/-- What an arena holds, a larger one holds too. -/
theorem Extends.tree? (h : arena.Extends arena') (htree : arena.tree? key = some type) :
    arena'.tree? key = some type := by
  refine byTree (fun key node parts hnode hlength hparts ih => ?_) htree
  rw [tree?_eq, h.get key node hnode]
  refine assemble_eq_some.2 ⟨parts, ?_, rfl⟩
  rw [hparts]
  refine map_congr_left fun part hpart => ?_
  obtain ⟨type, htype, htree⟩ := exists_tree_part hparts hpart
  rw [htree, ih part hpart type htype htree]

/-- What stands below a slot stands below it in a larger arena. -/
theorem Extends.below (h : arena.Extends arena') (hclosed : arena.Closed)
    (hkey : key < arena.slots.size) {other : Nat} (hbelow : arena'.Below key other) :
    arena.Below key other := by
  induction hbelow with
  | refl => exact .refl
  | tail _ hpart ih =>
    obtain ⟨node, hnode, hmem⟩ := hpart
    obtain ⟨node', hnode'⟩ := exists_get (hclosed.lt_of_below ih hkey)
    have hsame := h.get _ node' hnode'
    rw [hnode] at hsame
    cases hsame
    exact ih.tail ⟨node, hnode', hmem⟩

/-- Every slot still has a tree after slots were put behind the others. -/
theorem Appended.grounded {keys : List Nat} (h : Appended arena keys arena')
    (hgrounded : arena.Grounded) : arena'.Grounded := by
  intro key
  induction key using Nat.strong_induction_on with
  | h key ih =>
    intro hkey
    obtain ⟨node, hnode⟩ := exists_get hkey
    rcases h.fresh key node hnode with hold | ⟨-, hparts⟩
    · obtain ⟨type, htree⟩ := Option.isSome_iff_exists.1 (hgrounded key (lt_size_of_get hold))
      rw [h.kept.tree? htree]
      rfl
    · rw [tree?_eq, hnode]
      refine isSome_assemble.2 fun part hpart => ?_
      exact ih part (hparts part hpart) (Nat.lt_trans (hparts part hpart) hkey)

/-- Slots were put behind those of an arena, which stay as they are: each knows its key, and its
parts are new slots before it. -/
structure Grown (arena : Arena) (new : List TypeNode) (arena' : Arena) : Prop where
  slots : arena'.slots.toList = arena.slots.toList ++ new
  replaced : arena'.replaced = arena.replaced
  keys : new.map TypeNode.key = List.range' arena.slots.size new.length
  parts : ∀ node ∈ new, ∀ part ∈ node.shape.children, arena.slots.size ≤ part ∧ part < node.key

/-- Types were stored into an arena under these keys, in new slots that share no part: each new key
stands once among the keys and the parts of new slots. -/
structure Forest (arena : Arena) (types : List TypeExpr) (keys : List Nat) (new : List TypeNode)
    (arena' : Arena) : Prop where
  grown : arena.Grown new arena'
  once : (new.flatMap (fun node => node.shape.children) ++ keys).Perm
    (List.range' arena.slots.size new.length)
  trees : types.map some = keys.map arena'.tree?

section
variable (h : arena.Grown new arena')
include h

theorem Grown.size : arena'.slots.size = arena.slots.size + new.length := by
  rw [← Array.length_toList, h.slots, length_append, Array.length_toList]

theorem Grown.extends : arena.Extends arena' := by
  refine ⟨h.size ▸ Nat.le_add_right _ _, fun key node hnode => ?_, h.replaced⟩
  rw [get?, ← Array.getElem?_toList, h.slots, getElem?_append_left, Array.getElem?_toList]
  · exact hnode
  · exact lt_size_of_get hnode

/-- A new key stands for a new slot. -/
theorem Grown.get_iff (hkey : arena.slots.size ≤ key) :
    arena'.get? key = some node ↔ node ∈ new ∧ node.key = key := by
  have hget : arena'.get? key = new[key - arena.slots.size]? := by
    rw [get?, ← Array.getElem?_toList, h.slots, getElem?_append_right hkey, Array.length_toList]
  have hplace : ∀ place, new[place]? = some node → node.key = arena.slots.size + place := by
    intro place hnode
    obtain ⟨hlt, rfl⟩ := List.getElem?_eq_some_iff.1 hnode
    simpa [hlt] using congrArg (fun keys => keys[place]?) h.keys
  rw [hget]
  refine ⟨fun hnode => ⟨mem_of_getElem? hnode, ?_⟩, ?_⟩
  · have := hplace _ hnode
    omega
  · rintro ⟨hmem, rfl⟩
    obtain ⟨place, hnode⟩ := mem_iff_getElem?.1 hmem
    rw [hplace place hnode, Nat.add_sub_cancel_left, hnode]

end

theorem forest_nil (arena : Arena) : arena.Forest [] [] [] arena :=
  ⟨⟨(append_nil _).symm, rfl, rfl, nofun⟩, .nil, rfl⟩

/-- What was stored is found as it was in a larger arena. -/
theorem Forest.trees_of_extends (h : arena.Forest types keys new arena')
    (h' : arena'.Extends arena'') : types.map some = keys.map arena''.tree? := by
  rw [h.trees]
  refine map_congr_left fun key hkey => ?_
  obtain ⟨type, -, htree⟩ := mem_map.1 (h.trees ▸ mem_map_of_mem hkey)
  rw [← htree, h'.tree? htree.symm]

theorem extends_add (shape : TypeShape Nat) (arena : Arena) :
    arena.Extends (add shape arena).2 := by
  refine ⟨Array.size_push _ ▸ Nat.le_succ _, fun key node hnode => ?_, rfl⟩
  have hlt := lt_size_of_get hnode
  exact (Array.getElem?_push_lt hlt).trans ((Array.getElem?_eq_getElem hlt).symm.trans hnode)

/-- Types that were stored one after the other. -/
theorem Forest.append (h : arena.Forest types keys new arena')
    (h' : arena'.Forest types' keys' new' arena'') :
    arena.Forest (types ++ types') (keys ++ keys') (new ++ new') arena'' := by
  have hrange : List.range' arena.slots.size (new ++ new').length =
      List.range' arena.slots.size new.length ++ List.range' arena'.slots.size new'.length := by
    rw [h.grown.size, length_append, range'_append_1]
  refine ⟨⟨?_, h'.grown.replaced.trans h.grown.replaced, ?_, forall_mem_append.2
    ⟨h.grown.parts, fun node hnode part hpart => ?_⟩⟩, ?_, ?_⟩
  · rw [h'.grown.slots, h.grown.slots, append_assoc]
  · rw [map_append, h.grown.keys, h'.grown.keys, hrange]
  · exact (h'.grown.parts node hnode part hpart).imp_left (Nat.le_trans h.grown.extends.size)
  · rw [hrange, flatMap_append]
    refine .trans ?_ (h.once.append h'.once)
    simp only [append_assoc]
    exact (perm_append_comm_assoc _ _ _).append_left _
  · rw [map_append, map_append, h.trees_of_extends h'.grown.extends, h'.trees]

/-- A layer was stored after its parts. -/
theorem Forest.add {shape : TypeShape Nat} (h : arena.Forest types keys new arena')
    (hparts : shape.children = keys) (htype : type = shape.fill types) :
    arena.Forest [type] [(add shape arena').1] (new ++ [⟨arena'.slots.size, shape⟩])
      (add shape arena').2 := by
  have hrange : List.range' arena.slots.size (new.length + 1) =
      List.range' arena.slots.size new.length ++ [arena'.slots.size] := by
    rw [h.grown.size, range'_1_concat]
  refine ⟨⟨?_, h.grown.replaced, ?_, forall_mem_append.2 ⟨h.grown.parts,
    forall_mem_singleton.2 fun part hpart => ?_⟩⟩, ?_, ?_⟩
  · rw [← append_assoc, ← h.grown.slots]
    exact Array.toList_push
  · rw [map_append, h.grown.keys, length_append, length_singleton, hrange]
    rfl
  · rw [h.grown.size]
    exact mem_range'_1.1 (h.once.subset (mem_append_right _ (hparts ▸ hpart)))
  · rw [length_append, length_singleton, hrange, flatMap_append,
      flatMap_singleton, hparts]
    exact h.once.append_right _
  · have hnode : (Arena.add shape arena').2.get? arena'.slots.size =
      some ⟨arena'.slots.size, shape⟩ :=
      Array.getElem?_push_size
    have htree : (Arena.add shape arena').2.tree? arena'.slots.size = some type := by
      rw [tree?_eq, hnode]
      exact assemble_eq_some.2
        ⟨types, hparts ▸ h.trees_of_extends (extends_add shape arena'), htype⟩
    exact congrArg (fun type? => [type?]) htree.symm

/-- Types that are stored are a forest. -/
theorem storing_forest :
    Storing fun arena types keys arena' => ∃ new, arena.Forest types keys new arena' where
  nil := fun arena => ⟨[], forest_nil arena⟩
  append := fun ⟨_, h⟩ ⟨_, h'⟩ => ⟨_, h.append h'⟩
  add := fun ⟨_, h⟩ hparts htype => ⟨_, h.add hparts htype⟩

/-- Storing a type puts slots behind those of the arena. -/
theorem appended_insert (type : TypeExpr) (arena : Arena) :
    Appended arena [(insert type arena).1] (insert type arena).2 := by
  obtain ⟨new, h⟩ := storing_forest.insert type arena
  refine ⟨h.grown.extends, fun key node hnode => ?_, fun key hkey => ?_⟩
  · rcases Nat.lt_or_ge key arena.slots.size with hlt | hge
    · obtain ⟨old, hold⟩ := exists_get hlt
      rw [h.grown.extends.get key old hold] at hnode
      exact .inl (hnode ▸ hold)
    · obtain ⟨hnew, rfl⟩ := (h.grown.get_iff hge).1 hnode
      exact .inr ⟨rfl, fun part hpart => (h.grown.parts node hnew part hpart).2⟩
  · rw [h.grown.size]
    exact (mem_range'_1.1 (h.once.subset (mem_append_right _ hkey))).2

/-- Storing a type keeps what a layered arena holds. -/
theorem stored_insert (type : TypeExpr) (h : arena.Layered) :
    Stored arena [(insert type arena).1] (insert type arena).2 :=
  (appended_insert type arena).stored h

/-- Below the root of a tree stand the new slots. -/
theorem Forest.below_iff (h : arena.Forest types [root] new arena') :
    arena'.Below root key ↔ arena.slots.size ≤ key ∧ key < arena.slots.size + new.length := by
  constructor
  · intro hbelow
    rw [← mem_range'_1]
    induction hbelow with
    | refl => exact h.once.subset (mem_append_right _ (.head _))
    | tail _ hpart ih =>
      obtain ⟨node, hnode, hmem⟩ := hpart
      have hnew := ((h.grown.get_iff (mem_range'_1.1 ih).1).1 hnode).1
      exact h.once.subset (mem_append_left _ (mem_flatMap.2 ⟨node, hnew, hmem⟩))
  · -- the slot that a new one is part of stands behind it
    intro hkey
    induction hmeasure : arena'.slots.size - key using Nat.strong_induction_on generalizing key with
    | h measure ih =>
      have hlisted := h.once.mem_iff.2 (mem_range'_1.2 hkey)
      rw [mem_append, mem_singleton, mem_flatMap] at hlisted
      rcases hlisted with ⟨node, hnode, hmem⟩ | rfl
      · have hlt := (h.grown.parts node hnode key hmem).2
        have hle : arena.slots.size ≤ node.key := Nat.le_trans hkey.1 (Nat.le_of_lt hlt)
        have hget := (h.grown.get_iff hle).2 ⟨hnode, rfl⟩
        have hsize := lt_size_of_get hget
        have hnew : node.key < arena.slots.size + new.length := h.grown.size ▸ hsize
        exact (ih _ (by omega) ⟨hle, hnew⟩ rfl).tail ⟨node, hget, hmem⟩
      · exact .refl

/-- What stands below the root of a tree in a larger arena stood there before. -/
theorem Forest.below_of_extends (h : arena.Forest types [root] new arena')
    (h' : arena'.Extends arena'') (hbelow : arena''.Below root key) : arena'.Below root key := by
  induction hbelow with
  | refl => exact .refl
  | tail _ hpart ih =>
    obtain ⟨node, hnode, hmem⟩ := hpart
    obtain ⟨node', hnode'⟩ := exists_get (h.grown.size ▸ (h.below_iff.1 ih).2)
    cases hnode.symm.trans (h'.get _ node' hnode')
    exact ih.tail ⟨node, hnode', hmem⟩

/-- A type that was read into an arena is a tree of new slots. -/
theorem exists_forest {text : List Char} {line : Nat}
    (hread : arena.readInto text line = .ok (key, arena')) :
    ∃ type new, TypeExpr.read text line = .ok type ∧ arena.Forest [type] [key] new arena' := by
  rw [readInto_eq] at hread
  obtain ⟨type, htype, hinsert⟩ := bind_eq_ok.1 hread
  obtain ⟨new, hforest⟩ := storing_forest.insert type arena
  rw [show insert type arena = (key, arena') from Except.ok.inj hinsert] at hforest
  exact ⟨type, new, htype, hforest⟩

/-- A tree that was stored is found under its key. -/
theorem Forest.tree (h : arena.Forest [type] [root] new arena') : arena'.tree? root = some type :=
  (List.cons.inj h.trees).1.symm

end Arena

end DocTypes
