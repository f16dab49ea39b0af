import DocTypes.Draft.Load
import DocTypes.Proofs.Program.View

/-!
# What stands for a program's values in a draft

`Draft.Shows` tells which datum of a draft stands for a value of the program: a node and a block
stand under their numbers, plain data stand for themselves, and lists, tags and types are things of
their own behind the numbers of nodes and blocks. As long as these are kept, what stands for a value
stands for it (`Draft.Shows.mono`).
-/

namespace DocTypes

open List

/-- A value stands in another one, whatever the fields on the way there. -/
inductive Value.Within (inner : Value) : Value → Prop
  | self : inner.Within inner
  | item {value : Value} {items : List Value} :
    value ∈ items → inner.Within value → inner.Within (.list items)
  | field {node : Node} {pair : Field × Value} :
    pair ∈ node.fields → inner.Within pair.2 → inner.Within (.node node)

/-- Can it stand in a field of a node? -/
def Value.isOfTree : Value → Bool
  | .tag _ | .type _ | .types | .foreign _ _ => false
  | _ => true

namespace Program

/-- A program that was read and whose numbers say what they mean. -/
structure Consistent (program : Program) : Prop where
  source : program.source.isSome
  plain : ∀ value : Value, value.Within (.node program.root) → value.isOfTree
  known : ∀ node, (Value.node node).Within (.node program.root) →
    ∀ pair ∈ node.fields, pair.1 ∈ Field.known
  below : ∀ node, (Value.node node).Within (.node program.root) → node.id < program.nextNode
  once : ∀ node other, (Value.node node).Within (.node program.root) →
    (Value.node other).Within (.node program.root) → node.id = other.id → node = other
  parents : ∀ node, (Value.node node).Within (.node program.root) →
    ∀ id ∈ node.parent, (program.node? id).isSome
  owners : ∀ id block, program.block? id = some block →
    ∀ owner ∈ block.owner, (program.node? owner).isSome

variable (program : Program)

/-- The number of nodes and blocks. -/
def size : Nat :=
  program.nextNode + program.blocks.size

/-- The attributes of a node that is not the root. -/
def attributesOf (node : Node) : List (String × Value) :=
  [("type", .text node.kind.text), ("start", .key? (node.span.map Span.start)),
    ("end", .key? (node.span.map Span.stop)), ("parent", program.nodeValue node.parent),
    ("jsdoc", (node.doc.map Value.block).getD .null)] ++
    node.fields.map fun pair => (pair.1.text, pair.2)

/-- The attributes of a block. -/
def blockAttributes (block : Block) : List (String × Value) :=
  block.attributes.filter (fun pair => pair.1 != "tags") ++
    [("tags", .list (block.tags.map .tag)), ("parent", program.nodeValue block.owner)]

variable {program}

/-- A field is found by its name. -/
theorem lookup_fields {fields : List (Field × Value)} (h : ∀ pair ∈ fields, pair.1 ∈ Field.known)
    (name : String) : (fields.map fun pair => (pair.1.text, pair.2)).lookup name =
      fields.lookup (Field.ofText name) := by
  have hof : ∀ field ∈ Field.known, Field.ofText field.text = field := by decide +kernel
  induction fields with
  | nil => rfl
  | cons pair rest ih =>
    have hname : (name == pair.1.text) = (Field.ofText name == pair.1) := by
      refine Bool.eq_iff_iff.2 (beq_iff_eq.trans (Iff.trans ⟨?_, fun heq => ?_⟩ beq_iff_eq.symm))
      · rintro rfl
        exact hof _ (h pair (.head _))
      · rw [Field.ofText] at heq
        cases hfound : Field.known.find? fun field => field.text == name with
        | some field =>
          rw [hfound] at heq
          have hmeant := find?_some hfound
          rw [← show field = pair.1 from heq]
          exact (beq_iff_eq.1 hmeant).symm
        | none =>
          rw [hfound] at heq
          rw [← show Field.other name = pair.1 from heq]
          rfl
    rw [map_cons, lookup_cons, lookup_cons, hname, ih fun pair hpair => h pair (.tail _ hpair)]

/-- The attributes of a node, by their names. -/
theorem nodeAttribute?_eq_lookup {node : Node} (h : ∀ pair ∈ node.fields, pair.1 ∈ Field.known)
    (name : String) : program.nodeAttribute? node name =
      (program.attributesOf node ++
        if node.id == program.root.id then program.rootAttributes else []).lookup name := by
  by_cases hname : name ∈ ["type", "start", "end", "parent", "jsdoc"]
  · simp only [mem_cons, not_mem_nil, or_false] at hname
    rcases hname with rfl | rfl | rfl | rfl | rfl <;> rfl
  · rw [nodeAttribute?_of_notMem hname, lookup_append, attributesOf, lookup_append,
      lookup_fields h]
    have hnone : [("type", Value.text node.kind.text), ("start", .key? (node.span.map Span.start)),
        ("end", .key? (node.span.map Span.stop)), ("parent", program.nodeValue node.parent),
        ("jsdoc", (node.doc.map Value.block).getD .null)].lookup name = none :=
      lookup_eq_none_iff.2 fun pair hmem => bne_iff_ne.2 fun heq =>
        hname (heq ▸ mem_map_of_mem (f := Prod.fst) hmem)
    rw [hnone, Option.none_or]
    split <;> rfl

/-- Leaving a name out changes nothing for the others. -/
theorem lookup_filter_ne {name other : String} (h : name ≠ other)
    (attributes : List (String × Value)) :
    (attributes.filter fun pair => pair.1 != other).lookup name = attributes.lookup name := by
  induction attributes with
  | nil => rfl
  | cons pair rest ih =>
    by_cases hpair : pair.1 = other
    · rw [filter_cons_of_neg (by simpa using hpair), lookup_cons, hpair,
        beq_eq_false_iff_ne.2 h, ih]
    · rw [filter_cons_of_pos (by simpa using hpair), lookup_cons, lookup_cons, ih]

/-- The attributes of a block, by their names. -/
theorem blockAttribute?_eq_lookup {id : Nat} {block : Block}
    (h : program.block? id = some block) (name : String) :
    program.blockAttribute? id name = (program.blockAttributes block).lookup name := by
  have hblock : program.blockAttribute? id name =
      if name == "parent" then some (program.nodeValue block.owner)
      else block.attributes.lookup name := by
    rw [blockAttribute?, h]
    change (if _ then _ else _) = _
    split <;> rfl
  by_cases hparent : name = "parent"
  · subst hparent
    exact hblock.trans rfl
  by_cases htags : name = "tags"
  · subst htags
    exact hblock.trans rfl
  rw [hblock, if_neg (by simpa using hparent), blockAttributes, lookup_append,
    lookup_filter_ne htags, lookup_cons, lookup_cons, beq_eq_false_iff_ne.2 htags,
    beq_eq_false_iff_ne.2 hparent, lookup_nil, Option.or_none]

end Program

namespace Draft

section
variable (draft : Draft) (program : Program)

/-- A datum is a thing of the draft that is no node and no block. -/
def Holds (datum : Datum) (thing : Thing) : Prop :=
  ∃ ref, datum = .thing ref ∧ program.size ≤ ref ∧ draft.things[ref]? = some thing

mutual

/-- The datum stands for the value, and `leaf` says what stands for tags and types. -/
def Stands (leaf : Value → Datum → Prop) : Value → Datum → Prop
  | .null, datum => datum = .null
  | .bool value, datum => datum = .bool value
  | .text value, datum => datum = .text value
  | .decoded points, datum => datum = .ofPoints points
  | .number value, datum => datum = .number value
  | .regex pattern flags, datum => draft.Holds program datum
    (.table [(.text "pattern", .text pattern), (.text "flags", .text flags)])
  | .node node, datum => datum = .thing node.id
  | .list items, datum =>
    ∃ data, draft.Holds program datum (.list data) ∧ standsAll leaf items data
  | .block id, datum => datum = .thing (program.nextNode + id)
  | .tag tag, datum => leaf (.tag tag) datum
  | .type type, datum => leaf (.type type) datum
  | .types, datum => leaf .types datum
  | .foreign id kind, datum => leaf (.foreign id kind) datum

/-- The data stand for the values, one for each. -/
def standsAll (leaf : Value → Datum → Prop) : List Value → List Datum → Prop
  | [], data => data = []
  | value :: rest, data =>
    ∃ first later, data = first :: later ∧ Stands leaf value first ∧ standsAll leaf rest later

end

/-- The data stand for the attributes, each under its name. -/
def StandFor (leaf : Value → Datum → Prop) :
    List (String × Value) → List (String × Datum) → Prop :=
  Forall₂ fun named pair => named.1 = pair.1 ∧ draft.Stands program leaf named.2 pair.2

/-- The datum is a record of attributes that are plain data. -/
def IsRecord (sort : RecordSort) (attributes : List (String × Value)) (datum : Datum) : Prop :=
  ∃ data, draft.Holds program datum (.record sort data) ∧
    draft.StandFor program (fun _ _ => False) attributes data

/-- What stands for tags, types, comments and the arena. -/
def ShowsThing : Value → Datum → Prop
  | .tag tag, datum => draft.IsRecord program .tag tag.attributes datum
  | .type node, datum => draft.IsRecord program (.type node.shape.kindText) node.attributes datum
  | .foreign id _, datum => ∃ comment, program.comments[id]? = some comment ∧
    draft.Holds program datum (.record .comment comment.attributes)
  | .types, datum => ∃ slots replaced data, draft.Holds program datum
      (.record .arena [("slots", slots), ("replaced", replaced)]) ∧
    draft.Holds program slots (.list data) ∧
    Forall₂ (fun node => draft.IsRecord program (.type node.shape.kindText) node.attributes)
      program.types.slots.toList data ∧
    draft.Holds program replaced (.members (program.types.replaced.map .nat))
  | _, _ => False

/-- The datum stands for the value. -/
def Shows : Value → Datum → Prop :=
  draft.Stands program (draft.ShowsThing program)

/-- A record stands under a number, with these attributes. -/
def Records (ref : Nat) (sort : RecordSort) (attributes : List (String × Value)) : Prop :=
  ∃ data, draft.things[ref]? = some (.record sort data) ∧
    draft.StandFor program (draft.ShowsThing program) attributes data

end

variable {draft draft' : Draft} {program : Program}

theorem standsAll_iff {leaf : Value → Datum → Prop} {items : List Value} {data : List Datum} :
    draft.standsAll program leaf items data ↔ Forall₂ (draft.Stands program leaf) items data := by
  induction items generalizing data with
  | nil => rw [standsAll, forall₂_nil_left_iff]
  | cons value rest ih =>
    rw [standsAll, forall₂_cons_left_iff]
    constructor
    · rintro ⟨first, later, rfl, hfirst, hlater⟩
      exact ⟨first, later, hfirst, ih.1 hlater, rfl⟩
    · rintro ⟨first, later, hfirst, hlater, rfl⟩
      exact ⟨first, later, rfl, hfirst, ih.2 hlater⟩

/-- All things that are no nodes and no blocks are still there. -/
def Keeps (program : Program) (draft draft' : Draft) : Prop :=
  ∀ ref thing, program.size ≤ ref → draft.things[ref]? = some thing →
    draft'.things[ref]? = some thing

theorem Holds.mono (h : Keeps program draft draft') {datum : Datum} {thing : Thing}
    (hholds : draft.Holds program datum thing) : draft'.Holds program datum thing := by
  obtain ⟨ref, rfl, hsize, hthing⟩ := hholds
  exact ⟨ref, rfl, hsize, h ref thing hsize hthing⟩

section
variable {leaf leaf' : Value → Datum → Prop}

mutual

theorem Stands.mono (h : Keeps program draft draft')
    (hleaf : ∀ value datum, leaf value datum → leaf' value datum) :
    ∀ {value : Value} {datum : Datum}, draft.Stands program leaf value datum →
      draft'.Stands program leaf' value datum
  | .null, _, hstands | .bool _, _, hstands | .text _, _, hstands | .decoded _, _, hstands
  | .number _, _, hstands | .node _, _, hstands | .block _, _, hstands => hstands
  | .regex _ _, _, hstands => Holds.mono h hstands
  | .list _, _, ⟨data, hholds, hall⟩ => ⟨data, hholds.mono h, standsAll_mono h hleaf hall⟩
  | .tag _, _, hstands | .type _, _, hstands | .types, _, hstands | .foreign _ _, _, hstands =>
    hleaf _ _ hstands

theorem standsAll_mono (h : Keeps program draft draft')
    (hleaf : ∀ value datum, leaf value datum → leaf' value datum) :
    ∀ {items : List Value} {data : List Datum}, draft.standsAll program leaf items data →
      draft'.standsAll program leaf' items data
  | [], _, hall => hall
  | _ :: _, _, ⟨first, later, heq, hfirst, hlater⟩ =>
    ⟨first, later, heq, Stands.mono h hleaf hfirst, standsAll_mono h hleaf hlater⟩

end

theorem StandFor.mono (h : Keeps program draft draft')
    (hleaf : ∀ value datum, leaf value datum → leaf' value datum)
    {attributes : List (String × Value)} {data : List (String × Datum)}
    (hstand : draft.StandFor program leaf attributes data) :
    draft'.StandFor program leaf' attributes data :=
  hstand.imp fun _ _ hpair => ⟨hpair.1, hpair.2.mono h hleaf⟩

end

section
variable (h : Keeps program draft draft')
include h

theorem IsRecord.mono {sort : RecordSort} {attributes : List (String × Value)} {datum : Datum}
    (hrecord : draft.IsRecord program sort attributes datum) :
    draft'.IsRecord program sort attributes datum := by
  obtain ⟨data, hholds, hstand⟩ := hrecord
  exact ⟨data, hholds.mono h, hstand.mono h fun _ _ => id⟩

theorem ShowsThing.mono (value : Value) (datum : Datum)
    (hshows : draft.ShowsThing program value datum) : draft'.ShowsThing program value datum := by
  cases value with
  | tag | type => exact IsRecord.mono h hshows
  | foreign =>
    obtain ⟨comment, hcomment, hholds⟩ := hshows
    exact ⟨comment, hcomment, hholds.mono h⟩
  | types =>
    obtain ⟨slots, replaced, data, harena, hslots, hdata, hreplaced⟩ := hshows
    exact ⟨slots, replaced, data, harena.mono h, hslots.mono h,
      hdata.imp fun _ _ => IsRecord.mono h, hreplaced.mono h⟩
  | _ => cases hshows

theorem Shows.mono {value : Value} {datum : Datum} (hshows : draft.Shows program value datum) :
    draft'.Shows program value datum :=
  Stands.mono h (ShowsThing.mono h) hshows

end

end Draft

end DocTypes
