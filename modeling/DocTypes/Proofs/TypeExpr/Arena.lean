import DocTypes.TypeExpr.Arena

/-!
# Arenas into which types are stored

Storing a type puts new slots behind those that the arena holds, parts first (`Storing`). So in an
arena that was only stored into every slot refers to slots before it (`Layered`).
-/

namespace DocTypes

/-- The type with this outermost layer and these parts. -/
def TypeShape.fill (shape : TypeShape Nat) (parts : List TypeExpr) : TypeExpr :=
  let first := parts.headD .any
  match shape with
  | .name text => .name text
  | .any => .any
  | .unknown => .unknown
  | .string text quote => .string text quote
  | .number text => .number text
  | .union _ => .union parts
  | .intersection _ => .intersection parts
  | .generic _ _ dotted => .generic first parts.tail dotted
  | .array _ => .array first
  | .field label _ isOptional readonly quote => .field label parts.head? isOptional readonly quote
  | .object _ separator => .object parts separator
  | .tuple _ => .tuple parts
  | .parameter label _ isOptional isVariadic => .parameter label parts.head? isOptional isVariadic
  | .function parameters _ arrow constructs =>
    .function (parts.take parameters.length) (parts.drop parameters.length).head? arrow constructs
  | .parenthesis _ => .parenthesis first
  | .nullable _ leading => .nullable first leading
  | .notNullable _ leading => .notNullable first leading
  | .optional _ => .optional first
  | .variadic _ => .variadic parts.head?
  | .typeof _ => .typeof first
  | .keyof _ => .keyof first

namespace Arena

/-- The slots of the arena lead to slots, and each knows its key. -/
structure Closed (arena : Arena) : Prop where
  key : ∀ key node, arena.get? key = some node → node.key = key
  parts : ∀ key node, arena.get? key = some node →
    ∀ part ∈ node.shape.children, part < arena.slots.size

/-- Each slot of the arena knows its key, and its parts stand before it. -/
structure Layered (arena : Arena) : Prop where
  key : ∀ key node, arena.get? key = some node → node.key = key
  parts : ∀ key node, arena.get? key = some node → ∀ part ∈ node.shape.children, part < key

/-- The second arena has what the first one holds, and no other slot of the first was
overwritten. -/
structure Extends (arena arena' : Arena) : Prop where
  size : arena.slots.size ≤ arena'.slots.size
  get : ∀ key node, arena.get? key = some node → arena'.get? key = some node
  replaced : arena'.replaced = arena.replaced

/-- Slots were put behind those of an arena, each with its parts before it, and the keys are slots
now. -/
structure Appended (arena : Arena) (keys : List Nat) (arena' : Arena) : Prop where
  kept : arena.Extends arena'
  fresh : ∀ key node, arena'.get? key = some node → arena.get? key = some node ∨
    node.key = key ∧ ∀ part ∈ node.shape.children, part < key
  keys : ∀ key ∈ keys, key < arena'.slots.size

/-- Keys of slots that were stored into an arena, or were there before. -/
structure Stored (arena : Arena) (keys : List Nat) (arena' : Arena) : Prop where
  kept : arena.Extends arena'
  layered : arena'.Layered
  keys : ∀ key ∈ keys, key < arena'.slots.size

variable {arena arena' arena'' : Arena} {keys keys' : List Nat} {key : Nat} {node : TypeNode}

theorem exists_get (h : key < arena.slots.size) : ∃ node, arena.get? key = some node :=
  ⟨arena.slots[key], Array.getElem?_eq_getElem h⟩

theorem lt_size_of_get (h : arena.get? key = some node) : key < arena.slots.size :=
  (Array.getElem?_eq_some_iff.1 h).1

/-- In a layered arena all slots lead to slots. -/
theorem Layered.closed (h : arena.Layered) : arena.Closed where
  key := h.key
  parts := fun key node hnode part hpart =>
    Nat.lt_trans (h.parts key node hnode part hpart) (lt_size_of_get hnode)

theorem Extends.refl (arena : Arena) : arena.Extends arena :=
  ⟨Nat.le_refl _, fun _ _ h => h, rfl⟩

theorem Extends.trans (h : arena.Extends arena') (h' : arena'.Extends arena'') :
    arena.Extends arena'' :=
  ⟨Nat.le_trans h.size h'.size, fun key node hnode => h'.get key node (h.get key node hnode),
    h'.replaced.trans h.replaced⟩

theorem layered_empty : Layered {} where
  key _ _ h := absurd (lt_size_of_get h) (Nat.not_lt_zero _)
  parts _ _ h := absurd (lt_size_of_get h) (Nat.not_lt_zero _)

theorem appended_nil (arena : Arena) : Appended arena [] arena :=
  ⟨.refl arena, fun _ _ => .inl, nofun⟩

/-- What was put there first is there after more was. -/
theorem Appended.append (h : Appended arena keys arena') (h' : Appended arena' keys' arena'') :
    Appended arena (keys ++ keys') arena'' := by
  refine ⟨h.kept.trans h'.kept, fun key node hnode => ?_, List.forall_mem_append.2
    ⟨fun key hkey => Nat.lt_of_lt_of_le (h.keys key hkey) h'.kept.size, h'.keys⟩⟩
  rcases h'.fresh key node hnode with hold | hnew
  · exact h.fresh key node hold
  · exact .inr hnew

/-- What an arena holds after a slot was put behind the others. -/
theorem get_add {shape : TypeShape Nat} (h : (add shape arena).2.get? key = some node) :
    arena.get? key = some node ∨ node = ⟨key, shape⟩ ∧ key = arena.slots.size := by
  change (arena.slots.push _)[key]? = _ at h
  rw [Array.getElem?_push] at h
  split at h
  case isTrue heq =>
    cases h
    exact .inr ⟨heq ▸ rfl, heq⟩
  case isFalse => exact .inl h

/-- A layered arena stays so. -/
theorem Appended.stored (h : Appended arena keys arena') (hlayered : arena.Layered) :
    Stored arena keys arena' where
  kept := h.kept
  layered := by
    constructor
    all_goals
      intro key node hnode
      rcases h.fresh key node hnode with hold | ⟨hkey, hparts⟩
    · exact hlayered.key key node hold
    · exact hkey
    · exact hlayered.parts key node hold
    · exact hparts
  keys := h.keys

/-- The slots still lead to slots. -/
theorem Appended.closed (h : Appended arena keys arena') (hclosed : arena.Closed) :
    arena'.Closed := by
  constructor
  all_goals
    intro key node hnode
    rcases h.fresh key node hnode with hold | ⟨hkey, hparts⟩
  · exact hclosed.key key node hold
  · exact hkey
  · exact fun part hpart => Nat.lt_of_lt_of_le (hclosed.parts key node hold part hpart) h.kept.size
  · exact fun part hpart => Nat.lt_trans (hparts part hpart) (lt_size_of_get hnode)

/-- What was stored was put behind the slots. -/
theorem Stored.appended (h : Stored arena keys arena') : Appended arena keys arena' :=
  ⟨h.kept, fun key node hnode =>
    .inr ⟨h.layered.key key node hnode, h.layered.parts key node hnode⟩, h.keys⟩

/-- The arena was layered before. -/
theorem Stored.layered_before (h : Stored arena keys arena') : arena.Layered :=
  ⟨fun key node hnode => h.layered.key key node (h.kept.get key node hnode),
    fun key node hnode => h.layered.parts key node (h.kept.get key node hnode)⟩

theorem Layered.stored (h : arena.Layered) : Stored arena [] arena :=
  ⟨.refl arena, h, nofun⟩

/-- What was stored first is there after more was stored. -/
theorem Stored.append (h : Stored arena keys arena') (h' : Stored arena' keys' arena'') :
    Stored arena (keys ++ keys') arena'' :=
  (h.appended.append h'.appended).stored h.layered_before

/-- What holds if nothing is stored, if types are stored one after the other, and if a layer is
stored after its parts. -/
structure Storing (holds : Arena → List TypeExpr → List Nat → Arena → Prop) : Prop where
  nil : ∀ arena, holds arena [] [] arena
  append : ∀ {arena arena' arena'' types types' keys keys'}, holds arena types keys arena' →
    holds arena' types' keys' arena'' → holds arena (types ++ types') (keys ++ keys') arena''
  add : ∀ {arena arena' types keys shape type}, holds arena types keys arena' →
    shape.children = keys → type = shape.fill types →
      holds arena [type] [(add shape arena').1] (add shape arena').2

/-- Every type is stored under a key. -/
theorem length_insertAll : ∀ (types : List TypeExpr) (arena : Arena),
    (insertAll types arena).1.length = types.length
  | [], _ => rfl
  | _ :: rest, _ => congrArg Nat.succ (length_insertAll rest _)

section
variable {holds : Arena → List TypeExpr → List Nat → Arena → Prop} (h : Storing holds)
include h

mutual

/-- Storing a type is storing its layers. -/
theorem Storing.insert (type : TypeExpr) (arena : Arena) :
    holds arena [type] [(insert type arena).1] (insert type arena).2 := by
  cases type with
  | name | any | unknown | string | number => exact h.add (h.nil arena) rfl rfl
  | union elements | intersection elements | tuple elements | object elements =>
    exact h.add (insertAll elements arena) rfl rfl
  | generic head arguments dotted =>
    exact h.add (h.append (insert head arena) (insertAll arguments _)) rfl rfl
  | array element | parenthesis element | nullable element | notNullable element
  | optional element | typeof element | keyof element => exact h.add (insert element arena) rfl rfl
  | field _ type | parameter _ type =>
    exact h.add (insertOption type arena) rfl (by cases type <;> rfl)
  | function parameters result arrow constructs =>
    refine h.add (h.append (insertAll parameters arena) (insertOption result _)) rfl ?_
    rw [TypeShape.fill, length_insertAll, List.take_left, List.drop_left]
    cases result <;> rfl
  | variadic element => exact h.add (insertOption element arena) rfl (by cases element <;> rfl)

/-- Storing types is storing one after the other. -/
theorem Storing.insertAll (types : List TypeExpr) (arena : Arena) :
    holds arena types (insertAll types arena).1 (insertAll types arena).2 := by
  cases types with
  | nil => exact h.nil arena
  | cons type rest => exact h.append (insert type arena) (insertAll rest _)

/-- Storing a type that may be missing. -/
theorem Storing.insertOption (type : Option TypeExpr) (arena : Arena) :
    holds arena type.toList (insertOption type arena).1.toList (insertOption type arena).2 := by
  cases type with
  | none => exact h.nil arena
  | some type => exact insert type arena

end

end

end Arena

end DocTypes
