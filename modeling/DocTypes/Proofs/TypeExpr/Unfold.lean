import Mathlib.Data.List.Perm.Subperm
import Mathlib.Data.Nat.Find
import DocTypes.Proofs.Except
import DocTypes.Proofs.TypeExpr.Arena
import DocTypes.Proofs.TypeExpr.Expand

/-!
# The trees that arenas hold

`Arena.tree?` reads a type tree off the slots. However deep one looks, the tree is found among as
many layers as there are slots (`tree?_of_treeTo`): along a longest way down all keys differ. So the
tree of a slot is put together from the trees of its parts, without a bound (`tree?_eq`), and the
names in it are those in the slots below (`mem_names_tree`).

Overwriting the slots of a name with a type that holds none of them (`Overwrites`) replaces the name
in every tree in which no other slot of the name stands (`Overwrites.tree?_eq_subst`), and leaves
every slot with a tree (`Overwrites.grounded`).
-/

namespace DocTypes

open List

section
variable {α β γ : Type}

/-- Items of which all have a result have a list of results. -/
theorem isSome_mapM {step : α → Option β} {items : List α} :
    (items.mapM step).isSome ↔ ∀ item ∈ items, (step item).isSome := by
  induction items with
  | nil => simp
  | cons item rest ih =>
    rw [mapM_cons, forall_mem_cons, ← ih]
    cases step item <;> cases rest.mapM step <;> simp

/-- A step that is changed on no item. -/
theorem mapM_congr {step step' : α → Option β} {items : List α}
    (h : ∀ item ∈ items, step item = step' item) : items.mapM step = items.mapM step' := by
  ext results
  rw [mapM_eq_some, mapM_eq_some, map_congr_left h]

end

namespace TypeShape

variable {shape : TypeShape Nat} {parts : List TypeExpr}

/-- The parts are those that the layer was given. -/
theorem parts_fill (h : parts.length = shape.children.length) :
    (shape.fill parts).parts = parts := by
  cases shape with
  | name | any | unknown | string | number =>
    exact (length_eq_zero_iff.1 h).symm
  | union | intersection | tuple | object => rfl
  | generic head arguments dotted =>
    cases parts with
    | nil => cases h
    | cons => rfl
  | array | parenthesis | nullable | notNullable | optional | typeof | keyof =>
    obtain ⟨part, rfl⟩ := length_eq_one_iff.1 h
    rfl
  | field label type | parameter label type =>
    cases type with
    | none => rw [length_eq_zero_iff.1 h]; rfl
    | some key =>
      obtain ⟨part, rfl⟩ := length_eq_one_iff.1 h
      rfl
  | variadic type =>
    cases type with
    | none => rw [length_eq_zero_iff.1 h]; rfl
    | some key =>
      obtain ⟨part, rfl⟩ := length_eq_one_iff.1 h
      rfl
  | function parameters result arrow constructs =>
    have hrest : (parts.drop parameters.length).head?.toList = parts.drop parameters.length := by
      have hlength : (parts.drop parameters.length).length ≤ 1 := by
        rw [children, length_append] at h
        rw [length_drop, h]
        cases result <;> simp
      generalize parts.drop parameters.length = rest at hlength
      match rest with
      | [] | [_] => rfl
      | _ :: _ :: _ => simp at hlength
    rw [fill, TypeExpr.parts, hrest, take_append_drop]

/-- Only the layer of a name makes a name. -/
theorem fill_eq_name {text : String} (h : shape.fill parts = .name text) : shape = .name text := by
  cases shape with
  | name => cases h; rfl
  | _ => cases h

/-- Names are replaced in the parts of a layer. -/
theorem subst_fill (hname : ∀ text, shape ≠ .name text)
    (h : parts.length = shape.children.length) (meaning : String → TypeExpr) :
    (shape.fill parts).subst meaning = shape.fill (parts.map (TypeExpr.subst meaning)) := by
  cases shape with
  | name text => exact absurd rfl (hname text)
  | any | unknown | string | number => rfl
  | union | intersection | tuple | object => simp [fill, TypeExpr.subst]
  | generic head arguments dotted =>
    cases parts with
    | nil => cases h
    | cons => simp [fill, TypeExpr.subst]
  | array | parenthesis | nullable | notNullable | optional | typeof | keyof =>
    obtain ⟨part, rfl⟩ := length_eq_one_iff.1 h
    rfl
  | field | parameter | variadic | function => simp [fill, TypeExpr.subst]

end TypeShape

namespace Arena

variable {arena arena' : Arena} {part part' : Nat → Option TypeExpr} {shape : TypeShape Nat}
  {key : Nat} {type : TypeExpr} {label : String} {depth : Nat}

/-- The tree of a layer is the layer filled with the trees of its parts. -/
theorem assemble_eq (part : Nat → Option TypeExpr) (shape : TypeShape Nat) :
    assemble part shape = (shape.children.mapM part).map shape.fill := by
  cases shape with
  | name | any | unknown | string | number => rfl
  | union elements | intersection elements | tuple elements | object elements =>
    rw [assemble, TypeShape.children]
    cases elements.mapM part <;> rfl
  | generic head arguments dotted =>
    rw [assemble, TypeShape.children, mapM_cons]
    cases part head with
    | none => rfl
    | some => cases arguments.mapM part <;> rfl
  | array element | parenthesis element | nullable element | notNullable element
  | optional element | typeof element | keyof element =>
    rw [assemble, TypeShape.children, mapM_cons]
    cases part element <;> rfl
  | field _ type | parameter _ type | variadic type =>
    cases type with
    | none => rfl
    | some key =>
      rw [assemble, TypeShape.children, Option.toList_some, mapM_cons]
      change (part key).map some >>= _ = _
      cases part key <;> rfl
  | function parameters result arrow constructs =>
    rw [assemble, TypeShape.children, mapM_append]
    cases hparameters : parameters.mapM part with
    | none => rfl
    | some trees =>
      have hlength : trees.length = parameters.length := by
        have := congrArg List.length (mapM_eq_some.1 hparameters)
        simpa using this
      cases result with
      | none => simp [TypeShape.fill, ← hlength]
      | some key =>
        rw [Option.toList_some, mapM_cons]
        cases hkey : part key with
        | none => simp [hkey]
        | some tree => simp [TypeShape.fill, ← hlength, hkey]

/-- The tree of a layer depends on the trees of its parts. -/
theorem assemble_congr (h : ∀ key ∈ shape.children, part key = part' key) :
    assemble part shape = assemble part' shape := by
  rw [assemble_eq, assemble_eq, mapM_congr h]

/-- A layer has a tree if its parts have. -/
theorem isSome_assemble :
    (assemble part shape).isSome ↔ ∀ key ∈ shape.children, (part key).isSome := by
  rw [assemble_eq, Option.isSome_map, isSome_mapM]

/-- The tree of a layer and the trees of its parts. -/
theorem assemble_eq_some : assemble part shape = some type ↔
    ∃ parts, parts.map some = shape.children.map part ∧ type = shape.fill parts := by
  rw [assemble_eq, Option.map_eq_some_iff]
  exact exists_congr fun parts => and_congr mapM_eq_some eq_comm

section
variable {less : Nat}

/-- What is found in few layers is found in more. -/
theorem treeTo_succ : ∀ {depth key : Nat} {type : TypeExpr},
    arena.treeTo depth key = some type → arena.treeTo (depth + 1) key = some type
  | 0, _, _, h => nomatch h
  | depth + 1, key, type, h => by
    rw [treeTo] at h ⊢
    obtain ⟨node, hnode, h⟩ := Option.bind_eq_some_iff.1 h
    rw [hnode]
    have hparts := isSome_assemble.1 (Option.isSome_of_mem h)
    refine (assemble_congr fun key hkey => ?_).trans h
    obtain ⟨tree, htree⟩ := Option.isSome_iff_exists.1 (hparts key hkey)
    rw [htree, treeTo_succ htree]

/-- What is found in few layers is found in more. -/
theorem treeTo_mono (hle : less ≤ depth) (h : arena.treeTo less key = some type) :
    arena.treeTo depth key = some type := by
  induction hle with
  | refl => exact h
  | step _ ih => exact treeTo_succ ih

/-- A tree that takes many layers goes down through as many slots. -/
theorem exists_keys : ∀ {depth key : Nat}, (arena.treeTo depth key).isSome →
    (∀ less < depth, arena.treeTo less key = none) →
    ∃ keys : List Nat, keys.length = depth ∧ keys.Nodup ∧
      ∀ key ∈ keys, key < arena.slots.size ∧ (arena.treeTo depth key).isSome := by
  intro depth
  induction depth with
  | zero => exact fun h => nomatch h
  | succ depth ih =>
    intro key hsome hleast
    obtain ⟨type, htype⟩ := Option.isSome_iff_exists.1 hsome
    have htype' := htype
    rw [treeTo] at htype'
    obtain ⟨node, hnode, hassemble⟩ := Option.bind_eq_some_iff.1 htype'
    have hparts := isSome_assemble.1 (Option.isSome_of_mem hassemble)
    have hkey := lt_size_of_get hnode
    by_cases hlongest : ∃ part ∈ node.shape.children, ∀ less < depth, arena.treeTo less part = none
    · -- a part on the longest way down takes all layers but one
      obtain ⟨part, hpart, hleast'⟩ := hlongest
      obtain ⟨keys, hlength, hnodup, hkeys⟩ := ih (hparts part hpart) hleast'
      refine ⟨key :: keys, by rw [length_cons, hlength], nodup_cons.2 ⟨fun hmem => ?_, hnodup⟩,
        forall_mem_cons.2 ⟨⟨hkey, hsome⟩, fun key hmem => ⟨(hkeys key hmem).1, ?_⟩⟩⟩
      · have := (hkeys key hmem).2
        rw [hleast depth (Nat.lt_succ_self _)] at this
        cases this
      · obtain ⟨tree, htree⟩ := Option.isSome_iff_exists.1 (hkeys key hmem).2
        rw [treeTo_succ htree]
        rfl
    · cases depth with
      | zero =>
        exact ⟨[key], rfl, by simp, forall_mem_singleton.2 ⟨hkey, hsome⟩⟩
      | succ depth =>
        -- otherwise the whole would be found one layer earlier
        exfalso
        have hearlier : (arena.treeTo (depth + 1) key).isSome := by
          rw [treeTo, hnode]
          refine isSome_assemble.2 fun part hpart => ?_
          by_contra hnone
          refine hlongest ⟨part, hpart, fun less hless => ?_⟩
          by_contra hfound
          obtain ⟨tree, htree⟩ := Option.ne_none_iff_exists'.1 hfound
          refine hnone ?_
          rw [treeTo_mono (Nat.le_of_lt_succ hless) htree]
          rfl
        rw [hleast _ (Nat.lt_succ_self _)] at hearlier
        cases hearlier

/-- A tree is found among as many layers as there are slots, if it is found at all. -/
theorem tree?_of_treeTo (h : arena.treeTo depth key = some type) : arena.tree? key = some type := by
  classical
  have hex : ∃ depth, (arena.treeTo depth key).isSome := ⟨depth, Option.isSome_of_mem h⟩
  have hleast : ∀ less < Nat.find hex, arena.treeTo less key = none := fun less hless =>
    Option.not_isSome_iff_eq_none.1 (Nat.find_min hex hless)
  obtain ⟨keys, hlength, hnodup, hkeys⟩ := exists_keys (Nat.find_spec hex) hleast
  have hle : Nat.find hex ≤ arena.slots.size := by
    have hsub : keys ⊆ List.range arena.slots.size :=
      fun key hmem => mem_range.2 (hkeys key hmem).1
    have := (subperm_of_subset hnodup hsub).length_le
    rwa [hlength, length_range] at this
  obtain ⟨tree, htree⟩ := Option.isSome_iff_exists.1 (Nat.find_spec hex)
  have hsame := treeTo_mono (Nat.find_min' hex (Option.isSome_of_mem h)) htree
  rw [h] at hsame
  rw [tree?, treeTo_mono hle htree, hsame]

end

/-- The tree of a slot is put together from the trees of its parts. -/
theorem tree?_eq (arena : Arena) (key : Nat) :
    arena.tree? key = (arena.get? key).bind fun node => assemble arena.tree? node.shape := by
  have hsucc : arena.tree? key = arena.treeTo (arena.slots.size + 1) key := by
    cases h : arena.treeTo (arena.slots.size + 1) key with
    | some type => exact tree?_of_treeTo h
    | none =>
      cases h' : arena.tree? key with
      | none => rfl
      | some type => rw [treeTo_succ h'] at h; cases h
  exact hsucc

/-- The slot of the second key is a part of that of the first. -/
def Part (arena : Arena) (key part : Nat) : Prop :=
  ∃ node, arena.get? key = some node ∧ part ∈ node.shape.children

/-- The second key is the first, or stands below it. -/
def Below (arena : Arena) : Nat → Nat → Prop :=
  Relation.ReflTransGen arena.Part

/-- The slot holds this name. -/
def IsName (arena : Arena) (label : String) (key : Nat) : Prop :=
  ∃ node, arena.get? key = some node ∧ node.shape = .name label

/-- Every slot has a tree. -/
def Grounded (arena : Arena) : Prop :=
  ∀ key < arena.slots.size, (arena.tree? key).isSome

/-- The slot of a tree, and the trees of its parts. -/
theorem exists_parts (h : arena.tree? key = some type) :
    ∃ node parts, arena.get? key = some node ∧ type = node.shape.fill parts ∧
      parts.length = node.shape.children.length ∧
      parts.map some = node.shape.children.map arena.tree? := by
  rw [tree?_eq] at h
  obtain ⟨node, hnode, h⟩ := Option.bind_eq_some_iff.1 h
  obtain ⟨parts, hparts, htype⟩ := assemble_eq_some.1 h
  have hlength := congrArg List.length hparts
  rw [length_map, length_map] at hlength
  exact ⟨node, parts, hnode, htype, hlength, hparts⟩

/-- What holds of a tree if it holds of the trees of its parts holds of all trees. -/
@[elab_as_elim]
theorem byTree {motive : Nat → TypeExpr → Prop}
    (step : ∀ key node parts, arena.get? key = some node →
      parts.length = node.shape.children.length →
      parts.map some = node.shape.children.map arena.tree? →
      (∀ part ∈ node.shape.children, ∀ type ∈ parts, arena.tree? part = some type →
        motive part type) → motive key (node.shape.fill parts))
    (h : arena.tree? key = some type) : motive key type := by
  induction type using TypeExpr.byParts generalizing key with
  | step type ih =>
    obtain ⟨node, parts, hnode, rfl, hlength, hparts⟩ := exists_parts h
    refine step key node parts hnode hlength hparts fun part _ type htype htree => ?_
    exact ih type ((TypeShape.parts_fill hlength).symm ▸ htype) htree

/-- A part has a tree among those of the parts. -/
theorem exists_tree_part {node : TypeNode} {parts : List TypeExpr} {part : Nat}
    (hparts : parts.map some = node.shape.children.map arena.tree?)
    (hpart : part ∈ node.shape.children) : ∃ type ∈ parts, arena.tree? part = some type := by
  have hmem : arena.tree? part ∈ parts.map some := hparts ▸ mem_map_of_mem hpart
  obtain ⟨type, htype, heq⟩ := mem_map.1 hmem
  exact ⟨type, htype, heq.symm⟩

/-- A tree among those of the parts is that of a part. -/
theorem exists_part_tree {node : TypeNode} {parts : List TypeExpr}
    (hparts : parts.map some = node.shape.children.map arena.tree?) (htype : type ∈ parts) :
    ∃ part ∈ node.shape.children, arena.tree? part = some type := by
  have hmem : some type ∈ node.shape.children.map arena.tree? := hparts ▸ mem_map_of_mem htype
  exact mem_map.1 hmem

/-- What stands below a slot is the slot, or stands below a part. -/
theorem below_iff {node : TypeNode} (hnode : arena.get? key = some node) {other : Nat} :
    arena.Below key other ↔ other = key ∨ ∃ part ∈ node.shape.children, arena.Below part other := by
  rw [Below, Relation.ReflTransGen.cases_head_iff]
  refine or_congr eq_comm ⟨?_, fun ⟨part, hpart, h⟩ => ⟨part, ⟨node, hnode, hpart⟩, h⟩⟩
  rintro ⟨part, ⟨node', hnode', hpart⟩, h⟩
  rw [hnode] at hnode'
  cases hnode'
  exact ⟨part, hpart, h⟩

/-- The names in a tree are those in the slots below. -/
theorem mem_names_tree (h : arena.tree? key = some type) :
    label ∈ type.names ↔ ∃ other, arena.Below key other ∧ arena.IsName label other := by
  refine byTree (fun key node parts hnode hlength hparts ih => ?_) h
  by_cases hname : ∃ text, node.shape = .name text
  · obtain ⟨text, htext⟩ := hname
    have honly : ∀ other, arena.Below key other ↔ other = key := by
      intro other
      rw [below_iff hnode, htext]
      simp [TypeShape.children]
    rw [htext, TypeShape.fill, TypeExpr.names, mem_singleton]
    constructor
    · rintro rfl
      exact ⟨key, (honly key).2 rfl, node, hnode, htext⟩
    · rintro ⟨other, hother, node', hnode', hlabel⟩
      rw [(honly other).1 hother, hnode] at hnode'
      cases hnode'
      rw [htext] at hlabel
      cases hlabel
      rfl
  · have hother : ∀ text, node.shape ≠ .name text := not_exists.1 hname
    rw [TypeExpr.names_of_parts fun text heq => hother text (TypeShape.fill_eq_name heq),
      TypeShape.parts_fill hlength, mem_flatMap]
    constructor
    · rintro ⟨part, hpart, hlabel⟩
      obtain ⟨partKey, hmem, htree⟩ := exists_part_tree hparts hpart
      obtain ⟨other, hbelow, hname⟩ := (ih partKey hmem part hpart htree).1 hlabel
      exact ⟨other, (below_iff hnode).2 (.inr ⟨partKey, hmem, hbelow⟩), hname⟩
    · rintro ⟨other, hbelow, hname⟩
      rcases (below_iff hnode).1 hbelow with rfl | ⟨partKey, hmem, hbelow⟩
      · obtain ⟨node', hnode', hlabel⟩ := hname
        rw [hnode] at hnode'
        cases hnode'
        exact absurd hlabel (hother label)
      · obtain ⟨part, hpart, htree⟩ := exists_tree_part hparts hmem
        exact ⟨part, hpart, (ih partKey hmem part hpart htree).2 ⟨other, hbelow, hname⟩⟩

/-- In a layered arena every slot has a tree. -/
theorem Layered.grounded (h : arena.Layered) : arena.Grounded := by
  intro key
  induction key using Nat.strong_induction_on with
  | h key ih =>
    intro hkey
    obtain ⟨node, hnode⟩ := exists_get hkey
    rw [tree?_eq, hnode]
    refine isSome_assemble.2 fun part hpart => ?_
    have hlt := h.parts key node hnode part hpart
    exact ih part hlt (Nat.lt_trans hlt hkey)

/-- In a closed arena, what stands below a slot is a slot. -/
theorem Closed.lt_of_below (h : arena.Closed) {other : Nat} (hbelow : arena.Below key other)
    (hkey : key < arena.slots.size) : other < arena.slots.size := by
  induction hbelow with
  | refl => exact hkey
  | tail _ hpart _ =>
    obtain ⟨node, hnode, hmem⟩ := hpart
    exact h.parts _ node hnode _ hmem

/-- Some slots were given what another one holds. -/
structure Overwrites (arena : Arena) (keys : List Nat) (source : Nat) (arena' : Arena) : Prop where
  size : arena'.slots.size = arena.slots.size
  here : ∀ key ∈ keys, arena'.get? key = (arena.get? source).map fun node => ⟨key, node.shape⟩
  elsewhere : ∀ key, key ∉ keys → arena'.get? key = arena.get? key

/-- A slot can be given what another one holds. -/
theorem exists_replace? {source : Nat} (hkey : key < arena.slots.size)
    (hsource : source < arena.slots.size) :
    ∃ arena', arena.replace? key source = some arena' ∧ arena.Overwrites [key] source arena' := by
  obtain ⟨node, hnode⟩ := exists_get hsource
  refine ⟨_, by rw [replace?, hnode, Option.bind_eq_bind, Option.bind_some, guard,
    if_pos hkey]; rfl,
    Array.size_setIfInBounds .., ?_, fun other hother => ?_⟩
  · refine forall_mem_singleton.2 ?_
    rw [hnode]
    exact Array.getElem?_setIfInBounds_self_of_lt hkey
  · exact Array.getElem?_setIfInBounds_ne (Ne.symm (ne_of_not_mem_cons hother))

namespace Overwrites

variable {keys : List Nat} {source : Nat}

theorem refl (arena : Arena) (source : Nat) : arena.Overwrites [] source arena :=
  ⟨rfl, nofun, fun _ _ => rfl⟩

/-- One slot more is overwritten. -/
theorem trans {arena'' : Arena} (h : arena.Overwrites [key] source arena')
    (h' : arena'.Overwrites keys source arena'') (hsource : source ≠ key) :
    arena.Overwrites (key :: keys) source arena'' := by
  have hsame : arena'.get? source = arena.get? source :=
    h.elsewhere source fun hmem => hsource (mem_singleton.1 hmem)
  refine ⟨h'.size.trans h.size, fun other hother => ?_, fun other hother => ?_⟩
  · by_cases hmem : other ∈ keys
    · rw [h'.here other hmem, hsame]
    · rw [h'.elsewhere other hmem]
      exact h.here other (mem_singleton.2 ((mem_cons.1 hother).resolve_right hmem))
  · rw [mem_cons, not_or] at hother
    rw [h'.elsewhere other hother.2, h.elsewhere other (by simpa using hother.1)]

variable (h : arena.Overwrites keys source arena')
include h

/-- The slots still lead to slots. -/
theorem closed (hclosed : arena.Closed) : arena'.Closed := by
  have hshape : ∀ key node, arena'.get? key = some node →
      node.key = key ∧ ∃ key' node', arena.get? key' = some node' ∧ node'.shape = node.shape := by
    intro key node hnode
    by_cases hkey : key ∈ keys
    · rw [h.here key hkey] at hnode
      obtain ⟨node', hnode', rfl⟩ := Option.map_eq_some_iff.1 hnode
      exact ⟨rfl, source, node', hnode', rfl⟩
    · rw [h.elsewhere key hkey] at hnode
      exact ⟨hclosed.key key node hnode, key, node, hnode, rfl⟩
  refine ⟨fun key node hnode => (hshape key node hnode).1, fun key node hnode part hpart => ?_⟩
  obtain ⟨-, key', node', hnode', hsame⟩ := hshape key node hnode
  rw [h.size]
  exact hclosed.parts key' node' hnode' part (hsame ▸ hpart)

/-- A tree without one of the slots stays as it is. -/
theorem tree?_of_apart (htree : arena.tree? key = some type) :
    (∀ other, arena.Below key other → other ∉ keys) → arena'.tree? key = some type := by
  refine byTree (fun key node parts hnode hlength hparts ih hapart => ?_) htree
  rw [tree?_eq, h.elsewhere key (hapart key .refl), hnode]
  refine assemble_eq_some.2 ⟨parts, ?_, rfl⟩
  rw [hparts]
  refine map_congr_left fun part hpart => ?_
  obtain ⟨type, htype, htree⟩ := exists_tree_part hparts hpart
  rw [htree, ih part hpart type htype htree fun other hother =>
    hapart other ((below_iff hnode).2 (.inr ⟨part, hpart, hother⟩))]

variable {inner : TypeExpr} (hinner : arena.tree? source = some inner)
  (hsource : ∀ key, arena.Below source key → key ∉ keys)
include hinner hsource

/-- The slots have the tree of the one that they were given. -/
theorem tree?_here (hkey : key ∈ keys) : arena'.tree? key = some inner := by
  obtain ⟨node, parts, hnode, -, -, -⟩ := exists_parts hinner
  have hroot := h.tree?_of_apart hinner hsource
  rw [tree?_eq, h.elsewhere source (hsource source .refl), hnode] at hroot
  rw [tree?_eq, h.here key hkey, hnode]
  exact hroot

/-- Every slot still has a tree. -/
theorem grounded (hgrounded : arena.Grounded) : arena'.Grounded := by
  intro key hkey
  obtain ⟨type, htree⟩ := Option.isSome_iff_exists.1 (hgrounded key (h.size ▸ hkey))
  refine byTree (fun key node parts hnode hlength hparts ih => ?_) htree
  by_cases hkey : key ∈ keys
  · rw [h.tree?_here hinner hsource hkey]
    rfl
  · rw [tree?_eq, h.elsewhere key hkey, hnode]
    refine isSome_assemble.2 fun part hpart => ?_
    obtain ⟨type, htype, htree⟩ := exists_tree_part hparts hpart
    exact ih part hpart type htype htree

/-- If the slots are those of a name, the name is replaced in the tree. -/
theorem tree?_eq_subst (hnames : ∀ key ∈ keys, arena.IsName label key)
    (htree : arena.tree? key = some type) :
    (∀ other, arena.Below key other → arena.IsName label other → other ∈ keys) →
      arena'.tree? key = some (type.subst (TypeExpr.only label inner)) := by
  refine byTree (fun key node parts hnode hlength hparts ih hall => ?_) htree
  by_cases hkey : key ∈ keys
  · obtain ⟨node', hnode', hshape⟩ := hnames key hkey
    rw [hnode] at hnode'
    cases hnode'
    rw [h.tree?_here hinner hsource hkey, hshape]
    simp [TypeShape.fill, TypeExpr.subst, TypeExpr.only]
  · have hlabel : node.shape ≠ .name label := fun hshape =>
      hkey (hall key .refl ⟨node, hnode, hshape⟩)
    rw [tree?_eq, h.elsewhere key hkey, hnode]
    have hmap : (parts.map (TypeExpr.subst (TypeExpr.only label inner))).map some =
        node.shape.children.map arena'.tree? := by
      refine ext_getElem (by simp [hlength]) fun place hplace hplace' => ?_
      rw [length_map] at hplace'
      have hpart : node.shape.children[place] ∈ node.shape.children := getElem_mem _
      have hlt : place < parts.length := by simpa using hplace
      have hsome : arena.tree? node.shape.children[place] = some parts[place] := by
        have := congrArg (·[place]?) hparts
        simpa [hlt, hplace'] using this.symm
      simp only [getElem_map]
      exact (ih _ hpart _ (getElem_mem hlt) hsome fun other hother =>
        hall other ((below_iff hnode).2 (.inr ⟨_, hpart, hother⟩))).symm
    refine assemble_eq_some.2 ⟨_, hmap, ?_⟩
    by_cases hname : ∃ text, node.shape = .name text
    · obtain ⟨text, htext⟩ := hname
      have hother : text ≠ label := fun heq => hlabel (heq ▸ htext)
      simp [htext, TypeShape.fill, TypeExpr.subst, TypeExpr.only, hother]
    · exact TypeShape.subst_fill (not_exists.1 hname) hlength _

end Overwrites

end Arena

end DocTypes
