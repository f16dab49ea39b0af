import DocTypes.Proofs.TypeExpr.Insert
import DocTypes.Proofs.TypeExpr.ReadBack
import DocTypes.Proofs.TypeExpr.ReadFormed

/-!
# Types that are put in the place of a name

Overwriting the slot of a name puts a type in its place: `Unfolds` is the tree with the type in that
place, and it is what the arena holds then (`Overwrites.exists_unfolds`). The tree is formed again,
because a type can stand wherever a name does (`Keeps`). So if its operators are grouped, its text
is read back as the same type up to grouping (`read_print_replace`). They need not be: the head of a
generic type is printed without parentheses, whatever it is (`read_print_ungrouped_head`).
-/

namespace DocTypes

open List TypeExpr

namespace TypeExpr

/-- The second type can stand wherever the first one does, and starts with `keyof` only if the first
does. -/
structure Keeps (before after : TypeExpr) : Prop where
  isType : before.isType = true → after.isType = true
  isField : before.isField = true → after.isField = true
  isParameter : before.isParameter = true → after.isParameter = true
  isReceiver : before.isReceiver = true → after.isReceiver = true
  opening : after.opening = some "keyof" → before.opening = some "keyof" ∧
    before.isPrefixed = after.isPrefixed ∧ before.isLow = after.isLow

variable {before after : TypeExpr} {parts parts' : List TypeExpr}

theorem Keeps.isOperand (h : Keeps before after) (hoperand : before.isOperand = true) :
    after.isOperand = true := by
  rw [TypeExpr.isOperand, Bool.and_eq_true, bne_iff_ne] at hoperand ⊢
  exact ⟨h.isType hoperand.1, fun hopening => hoperand.2 (h.opening hopening).1⟩

/-- A whole type can stand where a name does. -/
theorem keeps_of_whole (h : after.Whole) (text : String) : Keeps (.name text) after where
  isType _ := isType_of_isOperand h.operand
  isField := nofun
  isParameter := nofun
  isReceiver := nofun
  opening hopening := by
    have hoperand := h.operand
    simp [TypeExpr.isOperand, hopening] at hoperand

theorem all_of_keeps {p : TypeExpr → Bool}
    (hp : ∀ {before after}, Keeps before after → p before = true → p after = true)
    (h : List.Forall₂ Keeps parts parts') (hall : parts.all p = true) : parts'.all p = true := by
  induction h with
  | nil => rfl
  | cons hfirst _ ih =>
    rw [all_cons, Bool.and_eq_true] at hall ⊢
    exact ⟨hp hfirst hall.1, ih hall.2⟩

end TypeExpr

namespace TypeShape

open TypeExpr (Keeps)

section
variable {shape : TypeShape Nat} {parts parts' : List TypeExpr}

/-- Parts that can stand where others do make up a layer that is formed if the other is. -/
theorem layerFormed_fill (h : List.Forall₂ Keeps parts parts')
    (hlength : parts.length = shape.children.length)
    (hlayer : (shape.fill parts).layerFormed = true) : (shape.fill parts').layerFormed = true := by
  have hoption : ∀ {parts parts' : List TypeExpr}, List.Forall₂ Keeps parts parts' →
      parts.head?.all TypeExpr.isOperand = true → parts'.head?.all TypeExpr.isOperand = true := by
    intro parts parts' h hall
    cases h with
    | nil => rfl
    | cons hfirst _ => exact hfirst.isOperand hall
  cases shape with
  | name | any | unknown | string | number => exact hlayer
  | union | intersection =>
    simp only [fill, layerFormed, Bool.and_eq_true] at hlayer ⊢
    rw [← h.length_eq]
    exact ⟨hlayer.1, TypeExpr.all_of_keeps Keeps.isOperand h hlayer.2⟩
  | tuple => exact TypeExpr.all_of_keeps Keeps.isOperand h hlayer
  | object fields separator =>
    simp only [fill, layerFormed, Bool.and_eq_true] at hlayer ⊢
    exact ⟨TypeExpr.all_of_keeps Keeps.isField h hlayer.1, hlayer.2⟩
  | generic head arguments dotted =>
    cases h with
    | nil => cases hlength
    | cons hhead harguments =>
      simp only [fill, layerFormed, Bool.and_eq_true] at hlayer ⊢
      exact ⟨hhead.isType hlayer.1, TypeExpr.all_of_keeps Keeps.isOperand harguments hlayer.2⟩
  | array | optional | typeof =>
    cases h with
    | nil => cases hlength
    | cons hfirst _ => exact hfirst.isType hlayer
  | parenthesis | keyof =>
    cases h with
    | nil => cases hlength
    | cons hfirst _ => exact hfirst.isOperand hlayer
  | nullable element leading | notNullable element leading =>
    cases h with
    | nil => cases hlength
    | cons hfirst _ =>
      cases leading with
      | true => exact hfirst.isOperand hlayer
      | false => exact hfirst.isType hlayer
  | field label type isOptional readonly quote =>
    cases quote <;> simp only [fill, layerFormed, Bool.and_eq_true] at hlayer ⊢ <;>
      exact ⟨hoption h hlayer.1, hlayer.2⟩
  | parameter label type isOptional isVariadic =>
    simp only [fill, layerFormed, Bool.and_eq_true] at hlayer ⊢
    exact ⟨hlayer.1, hoption h hlayer.2⟩
  | variadic element => exact hoption h hlayer
  | function parameters result arrow constructs =>
    have hparameters := forall₂_take parameters.length h
    have hresult := forall₂_drop parameters.length h
    simp only [fill, layerFormed, Bool.and_eq_true] at hlayer ⊢
    refine ⟨hoption hresult hlayer.1, ?_⟩
    cases arrow with
    | true =>
      simp only [if_true, Bool.and_eq_true] at hlayer ⊢
      refine ⟨TypeExpr.all_of_keeps Keeps.isParameter hparameters hlayer.2.1, ?_⟩
      generalize parts.drop parameters.length = rest at hlayer hresult
      generalize parts'.drop parameters.length = rest' at hresult
      cases hresult with
      | nil => exact hlayer.2.2
      | cons => rfl
    | false =>
      simp only [Bool.false_eq_true, if_false, Bool.and_eq_true] at hlayer ⊢
      refine ⟨hlayer.2.1, TypeExpr.all_of_keeps (fun hkeeps hform => ?_) hparameters hlayer.2.2⟩
      rw [Bool.or_eq_true] at hform ⊢
      exact hform.imp hkeeps.isOperand hkeeps.isReceiver

theorem keeps_fill (h : List.Forall₂ Keeps parts parts')
    (hlength : parts.length = shape.children.length) :
    Keeps (shape.fill parts) (shape.fill parts') where
  isType := by cases shape <;> exact id
  isField := by cases shape <;> exact id
  isParameter := by cases shape <;> exact id
  isReceiver := by
    cases shape with
    | parameter label type isOptional isVariadic =>
      cases h with
      | nil => exact id
      | cons => cases isOptional <;> cases isVariadic <;> exact id
    | _ => exact id
  opening := by
    cases shape with
    | generic head arguments dotted =>
      cases h with
      | nil => cases hlength
      | cons hhead _ => exact fun hopening => ⟨(hhead.opening hopening).1, rfl, rfl⟩
    | array | nullable | notNullable | optional =>
      cases h with
      | nil => cases hlength
      | cons hfirst _ =>
        intro hopening
        simp only [fill, TypeExpr.opening, headD_cons, Option.ite_none_left_eq_some] at hopening ⊢
        obtain ⟨hbare, hopening⟩ := hopening
        obtain ⟨hbefore, hprefixed, hlow⟩ := hfirst.opening hopening
        simp only [hprefixed, hlow]
        exact ⟨⟨hbare, hbefore⟩, rfl, rfl⟩
    | _ => exact fun hopening => ⟨hopening, rfl, rfl⟩

end

end TypeShape

namespace Arena

variable {arena arena' : Arena} {key slot source : Nat} {before after inner : TypeExpr}

/-- The tree below a key, with `inner` in the place of what the slot holds. -/
inductive Unfolds (arena : Arena) (slot : Nat) (inner : TypeExpr) : Nat → TypeExpr → Prop
  | here : Unfolds arena slot inner slot inner
  | layer {key : Nat} {node : TypeNode} {parts : List TypeExpr} (other : key ≠ slot)
    (found : arena.get? key = some node)
    (below : List.Forall₂ (Unfolds arena slot inner) node.shape.children parts) :
    Unfolds arena slot inner key (node.shape.fill parts)

theorem map_eq_map_of_forall₂ {children : List Nat} {parts : List TypeExpr}
    (h : List.Forall₂ (fun part type => arena.tree? part = some type) children parts) :
    children.map arena.tree? = parts.map some := by
  induction h with
  | nil => rfl
  | cons hfirst _ ih => rw [map_cons, map_cons, hfirst, ih]

theorem exists_of_forall₂ {R : Nat → TypeExpr → Prop} {children : List Nat} {parts : List TypeExpr}
    (h : List.Forall₂ R children parts) {type : TypeExpr} (htype : type ∈ parts) :
    ∃ part ∈ children, R part type := by
  induction h with
  | nil => cases htype
  | cons hfirst _ ih =>
    rcases mem_cons.1 htype with rfl | htype
    · exact ⟨_, .head _, hfirst⟩
    · obtain ⟨part, hpart, hR⟩ := ih htype
      exact ⟨part, .tail _ hpart, hR⟩

/-- What each part becomes makes up what all parts become. -/
theorem exists_forall₂ {becomes : Nat → TypeExpr → Prop} {keeps : TypeExpr → TypeExpr → Prop}
    {children : List Nat} {parts : List TypeExpr}
    (hparts : parts.map some = children.map arena.tree?)
    (h : ∀ part ∈ children, ∀ type ∈ parts, arena.tree? part = some type →
      ∃ after, becomes part after ∧ keeps type after) :
    ∃ parts', List.Forall₂ becomes children parts' ∧ List.Forall₂ keeps parts parts' := by
  induction children generalizing parts with
  | nil =>
    rw [map_nil, map_eq_nil_iff] at hparts
    subst hparts
    exact ⟨[], .nil, .nil⟩
  | cons part children ih =>
    obtain ⟨type, parts, rfl, htype, hrest⟩ := map_eq_cons_iff.1 hparts
    obtain ⟨after, hbecomes, hkeeps⟩ := h part (.head _) type (.head _) htype.symm
    obtain ⟨parts', hrest, hrest'⟩ := ih hrest fun part hpart type htype =>
      h part (.tail _ hpart) type (.tail _ htype)
    exact ⟨after :: parts', .cons hbecomes hrest, .cons hkeeps hrest'⟩

/-- Where the slot of a name is overwritten, the tree is the one with `inner` in its place, and
formed like the one before. -/
theorem Overwrites.exists_unfolds (h : arena.Overwrites [slot] source arena') {label : String}
    (hname : arena.IsName label slot) (hinner : arena.tree? source = some inner)
    (hsource : ∀ key, arena.Below source key → key ≠ slot) (hwhole : inner.Whole)
    (htree : arena.tree? key = some before) : before.isFormed = true →
    ∃ after, (arena'.tree? key = some after ∧ arena.Unfolds slot inner key after ∧
      after.isFormed = true) ∧ TypeExpr.Keeps before after := by
  refine byTree (fun key node parts hnode hlength hparts ih hformed => ?_) htree
  by_cases hkey : key = slot
  · subst hkey
    obtain ⟨node', hnode', hshape⟩ := hname
    rw [hnode] at hnode'
    cases hnode'
    refine ⟨inner, ⟨h.tree?_here hinner (fun key hbelow => ?_) (.head _), .here, hwhole.formed⟩, ?_⟩
    · exact fun hmem => hsource key hbelow (mem_singleton.1 hmem)
    · rw [hshape]
      exact TypeExpr.keeps_of_whole hwhole label
  · obtain ⟨hlayer, hpartsFormed⟩ := isFormed_iff.1 hformed
    rw [TypeShape.parts_fill hlength] at hpartsFormed
    obtain ⟨parts', hbecomes, hkeeps⟩ := exists_forall₂ hparts fun part hpart type htype htree =>
      ih part hpart type htype htree (hpartsFormed type htype)
    have htrees : parts'.map some = node.shape.children.map arena'.tree? :=
      (map_eq_map_of_forall₂ (hbecomes.imp fun _ _ hbecomes => hbecomes.1)).symm
    refine ⟨node.shape.fill parts',
      ⟨?_, .layer hkey hnode (hbecomes.imp fun _ _ hbecomes => hbecomes.2.1),
      isFormed_iff.2 ⟨TypeShape.layerFormed_fill hkeeps hlength hlayer, ?_⟩⟩,
      TypeShape.keeps_fill hkeeps hlength⟩
    · have helse : key ∉ [slot] := fun hmem => hkey (mem_singleton.1 hmem)
      rw [tree?_eq, h.elsewhere key helse, hnode]
      exact assemble_eq_some.2 ⟨parts', htrees, rfl⟩
    · rw [TypeShape.parts_fill hbecomes.length_eq.symm]
      intro type htype
      obtain ⟨part, -, hbecomes⟩ := exists_of_forall₂ hbecomes htype
      exact hbecomes.2.2

/-- A whole type is put in the place of a name of which it is not made up. -/
theorem exists_replaced {root : Nat} {label : String}
    (hbefore : arena.tree? root = some before) (hwhole : before.Whole)
    (hinner : arena.tree? source = some inner) (hwhole' : inner.Whole)
    (hname : arena.IsName label slot) (hapart : ∀ key, arena.Below source key → key ≠ slot) :
    ∃ after arena', arena.replace? slot source = some arena' ∧ arena'.tree? root = some after ∧
      arena.Unfolds slot inner root after ∧ after.Whole := by
  have ⟨node, hnode, _⟩ := hname
  have ⟨node', _, hnode', _⟩ := exists_parts hinner
  obtain ⟨arena', hreplace, hover⟩ := exists_replace? (lt_size_of_get hnode) (lt_size_of_get hnode')
  obtain ⟨after, ⟨htree, hunfolds, hformed⟩, hkeeps⟩ :=
    hover.exists_unfolds hname hinner hapart hwhole' hbefore hwhole.formed
  exact ⟨after, arena', hreplace, htree, hunfolds, hformed, hkeeps.isOperand hwhole.operand⟩

/-- If two texts are read into an arena and then the slot of a name in one of the types is given the
other type, the tree of the first type is the one with the second in the place of the name. If in
this tree every operator is grouped, then its text is read back, and the tree that is read is the
same up to grouping. -/
theorem read_print_replace {first second : Arena} {text text' : List Char}
    {line line' key₁ key₂ root slot source : Nat} {label : String}
    (hfirst : arena.readInto text line = .ok (key₁, first))
    (hsecond : first.readInto text' line' = .ok (key₂, second))
    (hroots : root = key₁ ∧ source = key₂ ∨ root = key₂ ∧ source = key₁)
    (hslot : second.Below root slot) (hname : second.IsName label slot) :
    ∃ inner after arena', second.tree? source = some inner ∧
      second.replace? slot source = some arena' ∧ second.Unfolds slot inner root after ∧
      arena'.tree? root = some after ∧ arena'.print? root = some after.print ∧
      (after.isGrouped = true → ∀ line, ∃ again,
        TypeExpr.read after.print.toList line = .ok again ∧ again.strip = after.strip) := by
  obtain ⟨type₁, new₁, hread₁, hforest₁⟩ := exists_forest hfirst
  obtain ⟨type₂, new₂, hread₂, hforest₂⟩ := exists_forest hsecond
  have hwhole₁ := TypeExpr.whole_of_read hread₁
  have hwhole₂ := TypeExpr.whole_of_read hread₂
  have htree₁ : second.tree? key₁ = some type₁ := hforest₂.grown.extends.tree? hforest₁.tree
  -- the slots of the second type are new, those of the first are not
  have hapart :
      ∀ {slot slot' : Nat}, second.Below key₁ slot → second.Below key₂ slot' → slot ≠ slot' := by
    intro slot slot' hslot hslot' heq
    have hlt := (hforest₁.below_iff.1 (hforest₁.below_of_extends hforest₂.grown.extends hslot)).2
    have hge := (hforest₂.below_iff.1 hslot').1
    rw [hforest₁.grown.size] at hge
    omega
  obtain ⟨inner, after, arena', hinner, hreplace, htree, hunfolds, hwhole⟩ :
      ∃ inner after arena', second.tree? source = some inner ∧
        second.replace? slot source = some arena' ∧ arena'.tree? root = some after ∧
        second.Unfolds slot inner root after ∧ after.Whole := by
    rcases hroots with ⟨rfl, rfl⟩ | ⟨rfl, rfl⟩
    · obtain ⟨after, arena', hreplaced⟩ := exists_replaced htree₁ hwhole₁ hforest₂.tree hwhole₂
        hname fun key hbelow heq => hapart hslot hbelow heq.symm
      exact ⟨type₂, after, arena', hforest₂.tree, hreplaced⟩
    · obtain ⟨after, arena', hreplaced⟩ := exists_replaced hforest₂.tree hwhole₂ htree₁ hwhole₁
        hname fun key hbelow => hapart hbelow hslot
      exact ⟨type₁, after, arena', htree₁, hreplaced⟩
  refine ⟨inner, after, arena', hinner, hreplace, hunfolds, htree, by rw [print?, htree]; rfl, ?_⟩
  intro hgrouped line
  have hlegible : after.Legible := ⟨hwhole.formed, hgrouped⟩
  exact ⟨after.reread, hlegible.read_print hwhole.operand line, after.strip_reread⟩

/-- A union that is put in the place of a name under brackets is printed in parentheses. -/
theorem read_print_replace_array : ∃ first second arena',
    readInto {} "X[]".toList 1 = .ok (1, first) ∧ first.readInto "A | B".toList 1 =
    .ok (4, second) ∧
      second.replace? 0 4 = some arena' ∧ arena'.print? 1 = some "(A | B)[]" ∧
      ∃ again, TypeExpr.read "(A | B)[]".toList 1 = .ok again ∧
        again.strip = .array (.union [.name "A", .name "B"]) := by
  have hfirst : readInto {} "X[]".toList 1 = .ok (1, ⟨#[⟨0, .name "X"⟩, ⟨1, .array 0⟩], []⟩) := by
    rfl
  have hsecond : readInto ⟨#[⟨0, .name "X"⟩, ⟨1, .array 0⟩], []⟩ "A | B".toList 1 =
      .ok (4, ⟨#[⟨0, .name "X"⟩, ⟨1, .array 0⟩, ⟨2, .name "A"⟩, ⟨3, .name "B"⟩,
        ⟨4, .union [2, 3]⟩], []⟩) := by
    decide +kernel
  obtain ⟨inner, after, arena', -, hreplace, -, htree, hprint, hread⟩ :=
    read_print_replace hfirst hsecond (.inl ⟨rfl, rfl⟩)
      (.single ⟨_, rfl, .head _⟩) ⟨_, rfl, rfl⟩
  cases hreplace
  cases htree
  exact ⟨_, _, _, hfirst, hsecond, rfl, hprint, hread (by decide) 1⟩

/-- A union as the head of a generic type is printed so that the arguments are those of its last
alternative. -/
theorem read_print_ungrouped_head :
    let type : TypeExpr := .generic (.union [.name "A", .name "B"]) [.name "T"] false
    type.Whole ∧ type.isGrouped = false ∧ type.print = "A | B<T>" ∧
      readInto {} type.print.toList 1 = .ok (4, ⟨#[⟨0, .name "A"⟩, ⟨1, .name "B"⟩, ⟨2, .name "T"⟩,
        ⟨3, .generic 1 [2] false⟩, ⟨4, .union [0, 3]⟩], []⟩) :=
  ⟨⟨by decide +kernel, by decide⟩, by decide, by decide, by decide +kernel⟩

end Arena

end DocTypes
