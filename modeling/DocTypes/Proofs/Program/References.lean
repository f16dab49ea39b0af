import DocTypes.Proofs.Program.Query
import DocTypes.Proofs.Selector.References
import Mathlib.Data.Set.List

/-!
# The references to a name

A query for the references to a name finds the types that are the name, each once (`query_named`).
In a program without blocks among its statements these are the slots that hold the name below the
types of tags that are in force (`query_references`).
-/

namespace DocTypes

open List

namespace Program

variable {program : Program} {label : String} {key other : Nat} {node node' : TypeNode}

/-- The tag stands in a registered block. -/
def HasTag (program : Program) (tag : Tag) : Prop :=
  ∃ id ∈ program.registered, ∃ block, program.block? id = some block ∧ tag ∈ block.tags

/-- The slot stands below the type of a tag in a registered block. -/
def Uses (program : Program) (key : Nat) : Prop :=
  ∃ tag top, program.HasTag tag ∧ tag.typeKey = some top ∧ program.types.Below top key

/-- The value is the slot of a name. -/
def isReference (label : String) : Value → Bool
  | .type node => node.shape == .name label
  | _ => false

/-- A type is selected if it is the name. -/
theorem selects_reference {ids : Nat → Prop} (h : program.Viewable ids) {value : Value}
    (hseen : program.IsAmong ids value) (above : List Value) (subject : Option Value) :
    (Selector.allOf [.kind "TypeName", .attributeIs ["value"] (.equals label)]).selects program.view
      value above subject = .ok (isReference label value) := by
  cases value with
  | node node => exact Selector.selects_other_kind (kind_node h hseen (by decide))
  | block id => exact Selector.selects_other_kind rfl
  | tag tag => exact Selector.selects_other_kind rfl
  | type node =>
    obtain ⟨key, shape⟩ := node
    cases shape with
    | name text =>
      have hreference :
          isReference label (.type ⟨key, .name text⟩) = (some text == some label) := by
        rw [isReference, Bool.eq_iff_iff, beq_iff_eq, beq_iff_eq]
        simp
      rw [hreference, Selector.selects, Selector.selectsAll, Selector.selects, Selector.selectsAll,
        Selector.selects, Selector.selectsAll]
      change (if (some text == some label) then Except.ok true else .ok false) = _
      cases some text == some label <;> rfl
    | _ => exact Selector.selects_other_kind rfl
  | _ => exact hseen.elim

/-- What is met on a walk; types stand below those of tags. -/
def IsMet (program : Program) (value : Value) : Prop :=
  program.IsSeen value ∧ ∀ node, value = .type node → program.Uses node.key

/-- What stands below what is met is met too. -/
theorem closed_isMet (h : program.Legible) : program.view.Closed program.IsMet := by
  rintro value ⟨hvalue, huses⟩
  obtain ⟨children, hchildren, hseen⟩ := closed_isAmong h.viewable value hvalue
  refine ⟨children, hchildren, fun child hchild => ⟨hseen child hchild, ?_⟩⟩
  rintro node rfl
  cases value with
  | node parent =>
    by_cases hroot : parent = program.root
    · obtain ⟨others, hothers, hkinds⟩ := h.viewable.children
      cases (hroot ▸ hchildren).symm.trans hothers
      rcases hkinds _ hchild with ⟨_, _, heq, -⟩ | ⟨_, heq, -⟩ <;> cases heq
    · obtain ⟨tokens, hplaced⟩ := hvalue.resolve_left hroot
      rw [children_node hplaced] at hchildren
      cases hchildren
      cases hplaced with
      | intro place bounds arranged below =>
      rcases arranged.null_or_node (mem_filter.1 hchild).1 with heq | ⟨_, heq⟩ <;> cases heq
  | block id =>
    obtain ⟨block, hblock⟩ := h.registered id hvalue
    rw [children_block hblock] at hchildren
    cases hchildren
    obtain ⟨_, _, heq⟩ := mem_map.1 hchild
    cases heq
  | tag tag =>
    obtain ⟨id, hid, block, hblock, htag⟩ := hvalue
    obtain ⟨types, htypes, hall⟩ := children_tag (h.keys id block hblock tag htag)
    rw [htypes] at hchildren
    cases hchildren
    obtain ⟨top, htop, node', hnode, heq⟩ := exists_mem_of_forall₂ hall hchild
    cases heq
    refine ⟨tag, top, ⟨id, hid, block, hblock, htag⟩, Option.mem_toList.1 htop, ?_⟩
    rw [h.types.key top node hnode]
    exact .refl
  | type parent =>
    obtain ⟨types, htypes, hall⟩ := children_type (h.types.parts _ parent hvalue)
    rw [htypes] at hchildren
    cases hchildren
    obtain ⟨part, hpart, node', hnode, heq⟩ := exists_mem_of_forall₂ hall hchild
    cases heq
    obtain ⟨tag, top, htag, htop, hbelow⟩ := huses parent rfl
    refine ⟨tag, top, htag, htop, hbelow.tail ⟨parent, hvalue, ?_⟩⟩
    rw [h.types.key part node hnode]
    exact hpart
  | _ => exact hvalue.elim

/-- A path of types leads to every slot below a slot. -/
theorem exists_leads (h : program.types.Closed) (hnode : program.types.get? key = some node)
    (hbelow : program.types.Below key other) (hother : program.types.get? other = some node') :
    ∃ path, program.view.Leads (.type node) path (.type node') := by
  induction hbelow generalizing node' with
  | refl =>
    rw [hnode] at hother
    cases hother
    exact ⟨[], .refl⟩
  | @tail middle other _ hpart ih =>
    obtain ⟨parent, hparent, hmem⟩ := hpart
    obtain ⟨path, hleads⟩ := ih hparent
    obtain ⟨types, htypes, hall⟩ := children_type (h.parts middle parent hparent)
    obtain ⟨child, hchild, node'', hnode'', rfl⟩ := exists_mem_of_forall₂_left hall hmem
    cases hother.symm.trans hnode''
    exact ⟨_, hleads.trans (.down htypes hchild .refl)⟩

/-- A path from the root leads to every slot that is used. -/
theorem Uses.exists_leads (h : program.Legible) (huses : program.Uses key)
    (hnode : program.types.get? key = some node) :
    ∃ path, program.view.Leads (.node program.root) path (.type node) := by
  obtain ⟨tag, top, ⟨id, hid, block, hblock, htag⟩, htop, hbelow⟩ := huses
  have hlt := h.keys id block hblock tag htag top htop
  obtain ⟨first, hfirst⟩ := Arena.exists_get hlt
  obtain ⟨path, hleads⟩ := Program.exists_leads h.types hfirst hbelow hnode
  obtain ⟨types, htypes, hall⟩ := children_tag (h.keys id block hblock tag htag)
  obtain ⟨child, hchild, first', hfirst', rfl⟩ :=
    exists_mem_of_forall₂_left hall (Option.mem_toList.2 htop)
  cases hfirst.symm.trans hfirst'
  exact ⟨_, .down (children_root h) (mem_append_right _ (mem_map_of_mem hid))
    (.down (children_block hblock) (mem_map_of_mem htag) (.down htypes hchild hleads))⟩

/-- The query for the references to a name finds the types that are the name, each once. -/
theorem query_named {ids : Nat → Prop} (h : program.Viewable ids)
    (hgrounded : program.types.Grounded) (hlabel : '"' ∉ label.toList) :
    ∃ keys : List Nat, program.query (Pass.references label) =
        .ok (keys.map fun key => .type ⟨key, .name label⟩) ∧ keys.Nodup ∧
      ∀ key, key ∈ keys ↔
        ∃ path, program.view.Leads (.node program.root) path (.type ⟨key, .name label⟩) := by
  obtain ⟨selectors, hread, hselects⟩ : ∃ selectors,
      Selector.read (Pass.references label).toList = .ok selectors ∧
      ∀ value path, program.IsAmong ids value →
        Selector.selectsSome program.view selectors value path none =
          .ok (isReference label value) :=
    ⟨_, Selector.read_references hlabel, fun _ path hseen =>
      Selector.selectsSome_singleton.trans (selects_reference h hseen path none)⟩
  obtain ⟨result, hresult⟩ := exists_query h hread fun value path hseen _ =>
    ⟨_, hselects value path hseen⟩
  obtain ⟨met, hmem, hcollects⟩ := collects_of_query h hread hgrounded hresult
  have hanswer : ∀ {value path}, (value, path) ∈ met →
      Selector.selectsSome program.view selectors value path none = .ok (isReference label value) :=
    fun {value path} hentry =>
      hselects value path (((hmem value path).1 hentry).seen (closed_isAmong h) (.inl rfl))
  have hkeys : result ∈ Set.range (List.map fun key => .type ⟨key, .name label⟩) := by
    rw [Set.range_list_map]
    intro value hvalue
    obtain ⟨path, hentry, htrue⟩ := hcollects.passed value hvalue
    have hreference := Except.ok.inj ((hanswer hentry).symm.trans htrue)
    cases value with
    | type node =>
      obtain ⟨key, shape⟩ := node
      cases beq_iff_eq.1 (show (shape == .name label) = true from hreference)
      exact ⟨key, rfl⟩
    | _ => cases hreference
  obtain ⟨keys, rfl⟩ := hkeys
  refine ⟨keys, hresult, ?_, fun key => ⟨fun hkey => ?_, ?_⟩⟩
  · refine (pairwise_map.1 hcollects.once).imp fun {first second} hapart heq => ?_
    exact beq_eq_false_iff_ne.1
      (show (TypeNode.mk second (.name label) == ⟨first, .name label⟩) = false
      from hapart) (heq ▸ rfl)
  · obtain ⟨path, hentry, -⟩ := hcollects.passed _ (mem_map_of_mem hkey)
    exact ⟨path, (hmem _ path).1 hentry⟩
  · rintro ⟨path, hpath⟩
    have hentry := (hmem _ path).2 hpath
    have htrue : isReference label (.type ⟨key, .name label⟩) = true := beq_self_eq_true _
    obtain ⟨other, hother, hsame⟩ :=
        (hcollects.complete _ path hentry).resolve_left fun hfalse => by
      rw [hanswer hentry, htrue] at hfalse
      cases hfalse
    obtain ⟨key', hkey', rfl⟩ := mem_map.1 hother
    rcases hsame with heq | hsame
    · cases heq
      exact hkey'
    · have heq : (TypeNode.mk key (.name label) == ⟨key', .name label⟩) = true := hsame
      cases beq_iff_eq.1 heq
      exact hkey'

/-- The query for the references to a name finds the slots that hold it and are used. -/
theorem query_references (h : program.Legible) (hgrounded : program.types.Grounded)
    (hlabel : '"' ∉ label.toList) :
    ∃ keys : List Nat, program.query (Pass.references label) =
        .ok (keys.map fun key => .type ⟨key, .name label⟩) ∧
      ∀ key, key ∈ keys ↔ program.Uses key ∧ program.types.IsName label key := by
  obtain ⟨keys, hquery, -, hkeys⟩ := query_named h.viewable hgrounded hlabel
  have hroot : program.IsMet (.node program.root) := ⟨.inl rfl, nofun⟩
  refine ⟨keys, hquery, fun key => (hkeys key).trans ⟨?_, ?_⟩⟩
  · rintro ⟨path, hleads⟩
    obtain ⟨hseen, huses⟩ := hleads.seen (closed_isMet h) hroot
    exact ⟨huses _ rfl, _, hseen, rfl⟩
  · rintro ⟨huses, ⟨key', shape⟩, hnode, rfl⟩
    cases h.types.key key _ hnode
    exact huses.exists_leads h hnode

end Program

end DocTypes
