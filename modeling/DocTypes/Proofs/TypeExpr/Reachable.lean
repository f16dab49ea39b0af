import Mathlib.Algebra.BigOperators.Group.Finset.Basic
import Mathlib.Algebra.BigOperators.Intervals
import DocTypes.Proofs.TypeExpr.Insert

/-!
# What is reachable in an arena

`Arena.reachable?` walks depth first with a stack and stops after a number of steps. `Visits` is the
walk by recursion, over which parts may be shared and lead back. The steps suffice
(`exists_visits`): each takes a key off the stack, and a slot puts its parts there only once. So the
keys that are listed are those that stand below the one that the walk starts from, each once and a
slot before its parts (`exists_reachable?`, `reachable?_preorder`). From the root of a type that was
read they are the new slots (`readInto_tree`).
-/

namespace DocTypes

open List

/-- The numbers of a list are added up by place. -/
theorem sum_map_eq_sum_range {α : Type} (f : α → Nat) (items : List α) :
    (items.map f).sum = ∑ place ∈ Finset.range items.length, (items[place]?.map f).getD 0 := by
  induction items with
  | nil => rfl
  | cons item rest ih =>
    rw [map_cons, sum_cons, ih, length_cons, Finset.sum_range_succ', Nat.add_comm]
    rfl

namespace Arena

variable {arena : Arena} {key : Nat} {stack seen : List Nat}

/-- How many parts a slot has. -/
def width (arena : Arena) (key : Nat) : Nat :=
  ((arena.get? key).map fun node => node.shape.children.length).getD 0

/-- How many keys the slots that were not seen can put on the stack. -/
def room (arena : Arena) (seen : List Nat) : Nat :=
  ∑ key ∈ Finset.range arena.slots.size \ seen.toFinset, arena.width key

/-- A slot that is seen now leaves less room for the others. -/
theorem room_eq (hkey : key < arena.slots.size) (hseen : key ∉ seen) :
    arena.room seen = arena.width key + arena.room (key :: seen) := by
  have hmem : key ∈ Finset.range arena.slots.size \ seen.toFinset := by
    simp [hkey, hseen]
  rw [room, room, toFinset_cons, Finset.sdiff_insert, Finset.add_sum_erase _ _ hmem]

/-- The keys that a depth-first walk lists: a key that was seen before is passed over, and any other
is listed before what its parts lead to, which is listed before what the later keys lead to. -/
inductive Visits (arena : Arena) : (seen keys result : List Nat) → Prop
  | done {seen : List Nat} : Visits arena seen [] []
  | again {seen keys result : List Nat} {key : Nat} (old : key ∈ seen)
    (later : Visits arena seen keys result) : Visits arena seen (key :: keys) result
  | first {seen keys inner outer : List Nat} {key : Nat} {node : TypeNode} (new : key ∉ seen)
    (get : arena.get? key = some node)
    (below : Visits arena (key :: seen) node.shape.children inner)
    (later : Visits arena (inner.reverse ++ key :: seen) keys outer) :
    Visits arena seen (key :: keys) (key :: (inner ++ outer))

/-- A walk from some keys and then others. -/
theorem Visits.split {keys keys' result : List Nat} (h : arena.Visits seen (keys ++ keys') result) :
    ∃ inner outer, result = inner ++ outer ∧ arena.Visits seen keys inner ∧
      arena.Visits (inner.reverse ++ seen) keys' outer := by
  induction keys generalizing seen result with
  | nil => exact ⟨[], result, rfl, .done, h⟩
  | cons key keys ih =>
    cases h with
    | again old later =>
      obtain ⟨inner, outer, heq, hinner, houter⟩ := ih later
      exact ⟨inner, outer, heq, .again old hinner, houter⟩
    | @first _ _ below _ _ _ new get hbelow later =>
      obtain ⟨inner, outer, rfl, hinner, houter⟩ := ih later
      refine ⟨key :: (below ++ inner), outer, by simp, .first new get hbelow hinner, ?_⟩
      simpa using houter

/-- A walk with enough steps comes to its end. -/
theorem exists_visits {bound : Nat} (hbound : stack.length + arena.room seen < bound)
    (hstack : ∀ key ∈ stack, ∀ other, arena.Below key other → other < arena.slots.size) :
    ∃ result, depthFirst arena.children? bound stack seen = some result ∧
      arena.Visits seen stack result := by
  induction bound generalizing stack seen with
  | zero => exact absurd hbound (Nat.not_lt_zero _)
  | succ bound ih =>
    cases stack with
    | nil => exact ⟨[], rfl, .done⟩
    | cons key stack =>
      obtain ⟨hkey, hrest⟩ := forall_mem_cons.1 hstack
      rw [length_cons] at hbound
      rw [depthFirst]
      by_cases hmem : key ∈ seen
      · rw [if_pos (contains_iff_mem.2 hmem)]
        have hbound' : stack.length + arena.room seen < bound := by omega
        obtain ⟨result, hresult, hvisits⟩ := ih hbound' hrest
        exact ⟨result, hresult, .again hmem hvisits⟩
      · rw [if_neg (by simpa using hmem)]
        have hlt := hkey key .refl
        obtain ⟨node, hnode⟩ := exists_get hlt
        have hbound' :
            (node.shape.children ++ stack).length + arena.room (key :: seen) < bound := by
          have hroom := room_eq hlt hmem
          have hwidth : arena.width key = node.shape.children.length := by rw [width, hnode]; rfl
          rw [length_append]
          omega
        have hparts : ∀ part ∈ node.shape.children, ∀ other, arena.Below part other →
            other < arena.slots.size :=
          fun part hpart other hbelow => hkey other (.head ⟨node, hnode, hpart⟩ hbelow)
        obtain ⟨result, hresult, hvisits⟩ := ih hbound' (forall_mem_append.2 ⟨hparts, hrest⟩)
        obtain ⟨inner, outer, rfl, hinner, houter⟩ := hvisits.split
        refine ⟨_, ?_, .first hmem hnode hinner houter⟩
        rw [children?, hnode]
        change (depthFirst arena.children? bound _ _).bind _ = _
        rw [hresult]
        rfl

/-- There is one walk only. -/
theorem Visits.unique {keys result result' : List Nat} (h : arena.Visits seen keys result)
    (h' : arena.Visits seen keys result') : result = result' := by
  induction h generalizing result' with
  | done =>
    cases h'
    rfl
  | again old later ih =>
    cases h' with
    | again _ later' => exact ih later'
    | first new => exact absurd old new
  | first new get below later ihbelow ihlater =>
    cases h' with
    | again old => exact absurd old new
    | first _ get' below' later' =>
      rw [get] at get'
      cases get'
      cases ihbelow below'
      rw [ihlater later']

/-- What a walk lists leads from the keys that it starts from, each once, and with what was seen
before it is closed under parts. -/
structure Walks (arena : Arena) (seen keys result : List Nat) : Prop where
  nodup : result.Nodup
  new : ∀ key ∈ result, key ∉ seen
  sound : ∀ key ∈ result, ∃ start ∈ keys, arena.Below start key
  started : ∀ key ∈ keys, key ∈ seen ∨ key ∈ result
  closed : ∀ key ∈ result, ∀ part, arena.Part key part → part ∈ seen ∨ part ∈ result

theorem Visits.walks {keys result : List Nat} (h : arena.Visits seen keys result) :
    arena.Walks seen keys result := by
  induction h with
  | done => exact ⟨.nil, nofun, nofun, nofun, nofun⟩
  | again old later ih =>
    refine ⟨ih.nodup, ih.new, fun key hkey => ?_, forall_mem_cons.2 ⟨.inl old, ih.started⟩,
      ih.closed⟩
    obtain ⟨start, hstart, hbelow⟩ := ih.sound key hkey
    exact ⟨start, .tail _ hstart, hbelow⟩
  | @first seen keys inner outer key node new get below later ihbelow ihlater =>
    have hinner : ∀ other ∈ inner, other ≠ key ∧ other ∉ seen :=
      fun other hother => not_or.1 fun hmem => ihbelow.new other hother (mem_cons.2 hmem)
    have houter : ∀ other ∈ outer, other ∉ inner ∧ other ≠ key ∧ other ∉ seen := by
      intro other hother
      simpa using ihlater.new other hother
    constructor
    case nodup =>
      refine nodup_cons.2 ⟨fun hmem => ?_, ihbelow.nodup.append ihlater.nodup ?_⟩
      · rcases mem_append.1 hmem with hmem | hmem
        · exact (hinner key hmem).1 rfl
        · exact (houter key hmem).2.1 rfl
      · exact fun other hother hother' => (houter other hother').1 hother
    case new =>
      exact forall_mem_cons.2 ⟨new, forall_mem_append.2
        ⟨fun other hother => (hinner other hother).2, fun other hother =>
        (houter other hother).2.2⟩⟩
    case sound =>
      refine forall_mem_cons.2 ⟨⟨key, .head _, .refl⟩, forall_mem_append.2
        ⟨fun other hother => ?_, fun other hother => ?_⟩⟩
      · obtain ⟨start, hstart, hbelow⟩ := ihbelow.sound other hother
        exact ⟨key, .head _, .head ⟨node, get, hstart⟩ hbelow⟩
      · obtain ⟨start, hstart, hbelow⟩ := ihlater.sound other hother
        exact ⟨start, .tail _ hstart, hbelow⟩
    case started =>
      refine forall_mem_cons.2 ⟨.inr (.head _), fun other hother => ?_⟩
      have := ihlater.started other hother
      simp only [mem_append, mem_reverse, mem_cons] at this ⊢
      tauto
    case closed =>
      have hkey : ∀ part, arena.Part key part → part ∈ node.shape.children := by
        rintro part ⟨node', get', hpart⟩
        rw [get] at get'
        cases get'
        exact hpart
      intro other hother part hpart
      rw [mem_cons, mem_append] at hother
      have hlisted : part ∈ key :: seen ∨ part ∈ inner ∨ part ∈ outer := by
        rcases hother with rfl | hother | hother
        · exact (ihbelow.started part (hkey part hpart)).imp_right .inl
        · exact (ihbelow.closed other hother part hpart).imp_right .inl
        · have := ihlater.closed other hother part hpart
          simp only [mem_append, mem_reverse] at this
          tauto
      simp only [mem_cons, mem_append] at hlisted ⊢
      tauto

/-- The walk comes to its end if it meets slots only, and lists what stands below the key. -/
theorem exists_walk (hslots : ∀ other, arena.Below key other → other < arena.slots.size) :
    ∃ keys, arena.reachable? key = some keys ∧ arena.Visits [] [key] keys ∧ keys.Nodup ∧
      ∀ other, other ∈ keys ↔ arena.Below key other := by
  have hroom : arena.room [] =
      (arena.slots.toList.map fun node => node.shape.children.length).foldl (· + ·) 0 := by
    rw [← sum_eq_foldl, sum_map_eq_sum_range, room, toFinset_nil, Finset.sdiff_empty,
      Array.length_toList]
    refine Finset.sum_congr rfl fun place _ => ?_
    rw [Array.getElem?_toList]
    rfl
  have hbound : [key].length + arena.room [] < arena.room [] + 2 := by
    rw [length_singleton]
    omega
  obtain ⟨keys, hkeys, hvisits⟩ := exists_visits hbound (forall_mem_singleton.2 hslots)
  have hwalks := hvisits.walks
  refine ⟨keys, ?_, hvisits, hwalks.nodup, fun other => ⟨fun hother => ?_, fun hbelow => ?_⟩⟩
  · rw [reachable?, ← hroom]
    exact hkeys
  · obtain ⟨start, hstart, hbelow⟩ := hwalks.sound other hother
    exact mem_singleton.1 hstart ▸ hbelow
  · induction hbelow with
    | refl => exact (hwalks.started key (.head _)).resolve_left not_mem_nil
    | tail _ hpart ih => exact (hwalks.closed _ ih _ hpart).resolve_left not_mem_nil

/-- The keys reachable from a key are those that stand below it. -/
theorem exists_reachable? (h : arena.Closed) (hkey : key < arena.slots.size) :
    ∃ keys, arena.reachable? key = some keys ∧ ∀ other, other ∈ keys ↔ arena.Below key other := by
  obtain ⟨keys, hkeys, -, -, hmem⟩ := exists_walk fun other hbelow => h.lt_of_below hbelow hkey
  exact ⟨keys, hkeys, hmem⟩

/-- A slot that stands below the key was overwritten. -/
def IsTouched (arena : Arena) (key : Nat) : Prop :=
  ∃ other ∈ arena.replaced, arena.Below key other

/-- Whether a type is touched can be asked of the slots that are reachable. -/
theorem touched?_eq {keys : List Nat} (hkeys : arena.reachable? key = some keys)
    (hmem : ∀ other, other ∈ keys ↔ arena.Below key other) :
    ∃ touched, arena.touched? key = some touched ∧ (touched = true ↔ arena.IsTouched key) := by
  rw [touched?, hkeys]
  split
  case isTrue hempty =>
    rw [List.isEmpty_iff] at hempty
    refine ⟨false, rfl, iff_of_false Bool.false_ne_true ?_⟩
    rintro ⟨other, hother, -⟩
    rw [hempty] at hother
    cases hother
  case isFalse =>
    refine ⟨_, rfl, ?_⟩
    rw [any_eq_true]
    refine exists_congr fun other => ?_
    rw [hmem, contains_iff_mem, and_comm]

/-- In an arena whose slots lead to slots, shared ones and cycles included, the keys reachable from
a key are those below it, each once and in the order of the walk by recursion, and the type is
touched if one of them was overwritten. -/
theorem reachable?_preorder
    (hparts : ∀ node ∈ arena.slots, ∀ part ∈ node.shape.children, part < arena.slots.size)
    (hkey : key < arena.slots.size) :
    ∃ keys, arena.reachable? key = some keys ∧ keys.Nodup ∧
      (∀ other, other ∈ keys ↔ arena.Below key other) ∧
      (∀ keys', arena.Visits [] [key] keys' ↔ keys' = keys) ∧
      ∃ touched, arena.touched? key = some touched ∧ (touched = true ↔ arena.IsTouched key) := by
  have hslots : ∀ other, arena.Below key other → other < arena.slots.size := by
    intro other hbelow
    cases hbelow with
    | refl => exact hkey
    | tail _ hpart =>
      obtain ⟨node, hnode, hmem⟩ := hpart
      exact hparts node (Array.mem_of_getElem? hnode) other hmem
  obtain ⟨keys, hkeys, hvisits, hnodup, hmem⟩ := exists_walk hslots
  refine ⟨keys, hkeys, hnodup, hmem, fun keys' => ⟨fun h => h.unique hvisits, ?_⟩,
    touched?_eq hkeys hmem⟩
  rintro rfl
  exact hvisits

/-- A tuple that was put in the place of its first element is its own element. -/
theorem reachable?_preorder_cyclic :
    ∃ arena, (insert (.tuple [.name "A", .name "B"]) {}).2.replace? 0 2 = some arena ∧
      arena.Part 0 0 ∧ arena.reachable? 2 = some [2, 0, 1] ∧ arena.Visits [] [2] [2, 0, 1] ∧
      arena.IsTouched 2 := by
  let arena : Arena := ⟨#[⟨0, .tuple [0, 1]⟩, ⟨1, .name "B"⟩, ⟨2, .tuple [0, 1]⟩], [0]⟩
  have hkeys : arena.reachable? 2 = some [2, 0, 1] := rfl
  obtain ⟨keys, hkeys', -, -, hvisits, touched, htouched, hiff⟩ :=
    reachable?_preorder (show ∀ node ∈ arena.slots, _ by decide)
      (show 2 < arena.slots.size by decide)
  rw [hkeys] at hkeys'
  cases hkeys'
  cases htouched
  exact ⟨arena, rfl, ⟨_, rfl, .head _⟩, hkeys, (hvisits _).2 rfl, hiff.1 rfl⟩

/-- A new slot is a part of one new slot, once, except for the root. -/
theorem Forest.count_eq {types : List TypeExpr} {new : List TypeNode} {arena' : Arena} {root : Nat}
    (h : arena.Forest types [root] new arena')
    (hkey : arena.slots.size ≤ key ∧ key < arena.slots.size + new.length) :
    (new.flatMap fun node => node.shape.children).count key = if key = root then 0 else 1 := by
  have hcount := h.once.count_eq key
  rw [count_eq_one_of_mem nodup_range' (mem_range'_1.2 hkey), count_append,
    count_singleton] at hcount
  simp only [beq_iff_eq, eq_comm (a := root)] at hcount
  split at hcount <;> simp_all

/-- Reading a type leaves the slots of any arena as they are and puts new ones behind them. If the
text is refused, these are the types that were complete by then. If it is not, they are one tree:
they are what is reachable from its root, and each but the root is a part of one of them, once. -/
theorem store_tree (arena : Arena) (text : List Char) (line : Nat) :
    match store text line arena with
    | (.error _, arena') => ∃ types keys new, arena.Forest types keys new arena'
    | (.ok root, arena') => ∃ new, arena.Grown new arena' ∧
      (∀ key ∈ new.map TypeNode.key, (new.flatMap fun node => node.shape.children).count key =
        if key = root then 0 else 1) ∧
      ∃ keys, arena'.reachable? root = some keys ∧
        ∀ key, key ∈ keys ↔ key ∈ new.map TypeNode.key := by
  have hstore := store_eq arena text line
  cases hread : TypeExpr.read text line with
  | error =>
    rw [hread] at hstore
    obtain ⟨types, hstore⟩ := hstore
    rw [hstore]
    exact ⟨types, _, storing_forest.insertAll types arena⟩
  | ok type =>
    rw [hread] at hstore
    rw [hstore]
    obtain ⟨new, h⟩ := storing_forest.insert type arena
    obtain ⟨keys, hkeys, -, -, hmem⟩ := exists_walk fun key hbelow =>
      h.grown.size ▸ (h.below_iff.1 hbelow).2
    refine ⟨new, h.grown, fun key hkey => ?_, keys, hkeys, fun key => ?_⟩
    · rw [h.grown.keys, mem_range'_1] at hkey
      exact h.count_eq hkey
    · rw [hmem, h.below_iff, h.grown.keys, mem_range'_1]

end Arena

end DocTypes
