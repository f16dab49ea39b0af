import DocTypes.Print.Source
import DocTypes.Proofs.Except
import DocTypes.Proofs.Print.Splice
import DocTypes.Proofs.Reader.Placed
import DocTypes.Proofs.Text.CodePoint
import DocTypes.Proofs.Tree.Node

/-!
# Printing from the source

A node that stands in the source is printed as the source text that it covers, with the blocks in
it patched (`level_placed`). Each printer on the way gives a stretch of the patched text: the text
between two children (`gap_eq`), children with the text between them (`interleaved_eq`), a whole
node. That stretches join without loss is `render_append`, which asks that none of them starts or
ends inside of what a block owns.
-/

namespace DocTypes

open List

/-- What a printer knows of a source whose blocks are to be patched. -/
structure PrintSource.Patched (source : PrintSource) (text : List Char) (patches : List Patch) :
    Prop where
  copies : source.text = some text
  apart : Patches text.length patches
  blocks : source.blocks = patches.map fun patch =>
    ⟨.block patch.block, patch.span.start, patch.span.stop⟩
  document : ∃ print, source.document = some print ∧
    ∀ patch ∈ patches, print (.block patch.block) = .ok (some patch.text)
  extent : ∀ node, source.extent (.node node) = .ofSpan? node.span

namespace Printer

/-- A value that is printed as the stretch of the patched text that it covers. -/
structure Copied (text : List Char) (patches : List Patch) (recur : Value → Printer Text)
    (context : PrintContext) (outer : Span) (value : Value) : Prop where
  node : ∃ node span, value = .node node ∧ node.span = some span ∧ span.Inside outer ∧
    IsCut patches span.start ∧ IsCut patches span.stop ∧
    recur value context = .ok (Text.ofChars (render text patches span.start span.stop))

variable {source : PrintSource} {text : List Char} {patches : List Patch}
  {recur : Value → Printer Text} {context : PrintContext}

/-- Printers one after the other. -/
theorem bind_ok {α β : Type} {first : Printer α} {next : α → Printer β} {value : α}
    {result : Except PrintFault β} (h : first context = .ok value)
    (hnext : next value context = result) : (first >>= next) context = result := by
  change (first context >>= fun value => next value context) = _
  rw [h]
  exact hnext

/-- What is text is kept as text. -/
theorem asText_ok {fault : AccessFault} {printer : Printer Text} {printed : Text}
    (h : printer context = .ok printed) : asText fault printer context = .ok printed := by
  change tryCatch (printer context) _ = _
  rw [h]
  rfl

/-- Cutting between two offsets is slicing. -/
theorem cut_ofNat (text : List Char) (a b : Nat) :
    cut text (some (a : Int)) (some (b : Int)) = slice text a b := by
  have ha : ¬(a : Int) < 0 := by omega
  have hb : ¬(b : Int) < 0 := by omega
  simp only [cut, Option.map_some, Option.getD_some, offsetIn, if_neg ha, if_neg hb,
    Int.toNat_natCast]

/-- The text up to an offset is printed with its patches. -/
theorem gapFrom_eq {stop : Nat} : ∀ {patches : List Patch} {place : Nat},
    (∀ patch ∈ patches, patch.span.stop ≤ stop ∧
      recur (.block patch.block) context = .ok patch.text) →
    gapFrom text recur stop place (patches.map fun patch =>
      ⟨.block patch.block, patch.span.start, patch.span.stop⟩) context =
        .ok (Text.ofChars (splice text stop place patches)) := by
  intro patches
  induction patches with
  | nil =>
    intro place _
    rw [map_nil, gapFrom, cut_ofNat]
    rfl
  | cons patch rest ih =>
    intro place h
    obtain ⟨⟨hstop, hprint⟩, hrest⟩ := forall_mem_cons.1 h
    have hle : (patch.span.stop : Int) ≤ (stop : Int) := by omega
    rw [map_cons, gapFrom, if_pos hle, cut_ofNat]
    refine bind_ok hprint (bind_ok (ih hrest) ?_)
    rw [splice, Text.ofChars_append, Text.ofChars_append]
    rfl

section
variable (h : source.Patched text patches)
  (hprint : ∀ patch ∈ patches, recur (.block patch.block) context = .ok patch.text)
include h hprint

/-- The text between two offsets is printed with its patches. -/
theorem gap_eq {start stop : Nat} (hcut : IsCut patches stop) :
    gap source text recur (some (start : Int)) (some (stop : Int)) context =
      .ok (Text.ofChars (render text patches start stop)) := by
  have hwindow : (source.blocks.filter fun block =>
      decide ((start : Int) ≤ block.start) && decide (block.start < (stop : Int))) =
      (window patches start stop).map fun patch =>
        ⟨.block patch.block, patch.span.start, patch.span.stop⟩ := by
    rw [h.blocks, filter_map]
    congr 1
    refine filter_congr fun patch _ => ?_
    simp only [Function.comp_apply, Int.ofNat_le, Int.ofNat_lt]
  rw [gap, hwindow]
  refine gapFrom_eq fun patch hmem => ?_
  obtain ⟨hmem, hstart⟩ := mem_filter.1 hmem
  simp only [Bool.and_eq_true, decide_eq_true_eq] at hstart
  refine ⟨?_, hprint patch hmem⟩
  rcases hcut patch hmem with hle | hle <;> omega

/-- Children are printed with the text between them. -/
theorem interleaved_eq {outer : Span} : ∀ {values : List Value} {place : Nat},
    (∀ value ∈ values, Copied text patches recur context outer value) →
    place ≤ outer.stop → IsCut patches place →
    ∃ last, place ≤ last ∧ last ≤ outer.stop ∧ IsCut patches last ∧
      interleaved source text recur (some (place : Int)) values context =
        .ok (Text.ofChars (render text patches place last), some (last : Int)) := by
  intro values
  induction values with
  | nil =>
    intro place _ hplace hcut
    refine ⟨place, Nat.le_refl _, hplace, hcut, ?_⟩
    rw [interleaved, render_self]
    rfl
  | cons value rest ih =>
    intro place hvalues hplace hcut
    obtain ⟨⟨node, span, rfl, hspan, hinside, hstart, hstop, hcopied⟩, hrest⟩ :=
      forall_mem_cons.1 hvalues |>.imp Copied.node id
    have hextent : source.extent (.node node) = ⟨.at span.start, .at span.stop⟩ := by
      rw [h.extent, hspan]
      rfl
    unfold interleaved
    rw [hextent]
    dsimp only
    by_cases hle : place ≤ span.start
    · obtain ⟨last, hlast, hend, hlastCut, hlater⟩ := ih hrest hinside.stop hstop
      refine ⟨last, by have := hinside.order; omega, hend, hlastCut, ?_⟩
      rw [if_pos (Int.ofNat_le.2 hle)]
      refine bind_ok (gap_eq h hprint hstart) (bind_ok hcopied (bind_ok rfl (bind_ok hlater ?_)))
      rw [← render_append h.apart (Nat.le_trans hle hinside.order) hlast hstop,
        ← render_append h.apart hle hinside.order hstart,
        Text.ofChars_append, Text.ofChars_append]
      rfl
    · -- the child starts inside of the text that was printed, which holds it
      obtain ⟨last, hlast⟩ := ih hrest hplace hcut
      refine ⟨last, hlast.1, hlast.2.1, hlast.2.2.1, ?_⟩
      rw [if_neg (by omega)]
      exact hlast.2.2.2

end

/-- Values with a place, and values without one behind them, are told apart from the end. -/
theorem splitPlaceless {placed placeless : List Value}
    (hplaced : ∀ value ∈ placed, isPlaceless source value = false)
    (hplaceless : ∀ value ∈ placeless, isPlaceless source value = true) :
    ((placed ++ placeless).reverse.takeWhile (isPlaceless source)).reverse = placeless := by
  rw [reverse_append, takeWhile_append_of_pos
    fun value hmem => hplaceless value (mem_reverse.1 hmem)]
  have hnone : placed.reverse.takeWhile (isPlaceless source) = [] := by
    rw [takeWhile_eq_nil_iff]
    intro hpos hfirst
    have hlast := hplaced _ (mem_reverse.1 (get_mem placed.reverse ⟨0, hpos⟩))
    rw [hlast] at hfirst
    cases hfirst
  rw [hnone, append_nil, reverse_reverse]

/-- A value that is copied has a place. -/
theorem Copied.has_place (h : source.Patched text patches) {outer : Span} {value : Value}
    (hvalue : Copied text patches recur context outer value) :
    isPlaceless source value = false := by
  obtain ⟨node, span, rfl, hspan, _⟩ := hvalue.node
  rw [Printer.isPlaceless, h.extent, hspan]
  rfl

/-- A printer mapped over values gives what it gives for each. -/
theorem mapM_ok {α β : Type} {printer : α → Printer β} {values : List α} {results : List β}
    (h : List.Forall₂ (fun value result => printer value context = .ok result) values results) :
    values.mapM printer context = .ok results := by
  induction h with
  | nil => rfl
  | cons hvalue _ ih =>
    rw [mapM_cons]
    exact bind_ok hvalue (bind_ok ih rfl)

section
variable {direct : Value → Printer Text} {node : Node} {span : Span}
  {placed placeless : List Value} {texts : List Text}

/-- A node is the stretch of the patched text that it covers. Values without a place come behind it,
if the node is a program. -/
theorem sourceForm_eq (h : source.Patched text patches)
    (hprint : ∀ patch ∈ patches, direct (.block patch.block) context = .ok patch.text)
    (hspan : node.span = some span) (horder : span.start ≤ span.stop)
    (hstart : IsCut patches span.start) (hstop : IsCut patches span.stop)
    (hchildren : source.children node context = .ok (placed ++ placeless))
    (hplaced : ∀ value ∈ placed, Copied text patches direct context span value)
    (hplaceless : ∀ value ∈ placeless, isPlaceless source value = true)
    (htexts : List.Forall₂ (fun value text => direct value context = .ok text) placeless texts)
    (hkind : node.kind = .program ∨ placeless = []) :
    sourceForm source text direct node span.start context =
      .ok (appendItems (Text.ofChars (render text patches span.start span.stop)) texts) := by
  have hcopied : ∀ value ∈ placed, Copied text patches
      (fun value => asText .misfit (direct value)) context span value := by
    intro value hmem
    obtain ⟨child, inner, hvalue, hinner, hinside, hcuts, hcut, hcopied⟩ :=
      (hplaced value hmem).node
    exact ⟨child, inner, hvalue, hinner, hinside, hcuts, hcut, asText_ok hcopied⟩
  have hblocks : ∀ patch ∈ patches, (fun value => asText .misfit (direct value))
      (.block patch.block) context = .ok patch.text :=
    fun patch hmem => asText_ok (hprint patch hmem)
  have htrailing : ((placed ++ placeless).reverse.takeWhile (isPlaceless source)).reverse =
      placeless :=
    splitPlaceless (fun value hmem => (hplaced value hmem).has_place h) hplaceless
  have hleading : (placed ++ placeless).take ((placed ++ placeless).length - placeless.length) =
      placed := by
    rw [length_append, Nat.add_sub_cancel, take_left]
  obtain ⟨last, hlast, hend, hcut, hhead⟩ := interleaved_eq h hblocks hcopied horder hstart
  have hafter : placeAfter (source.extent (.node node)).stop context =
      .ok (some (span.stop : Int)) := by
    rw [h.extent, hspan]
    rfl
  have htail : gap source text (fun value => asText .misfit (direct value)) (some (last : Int))
      (some (span.stop : Int)) context =
        .ok (Text.ofChars (render text patches last span.stop)) :=
    gap_eq h hblocks hstop
  have hjoin : Text.ofChars (render text patches span.start last) ++
      Text.ofChars (render text patches last span.stop) =
        Text.ofChars (render text patches span.start span.stop) := by
    rw [← Text.ofChars_append, render_append h.apart hlast hend hcut]
  unfold sourceForm
  refine bind_ok hchildren ?_
  dsimp only
  rw [htrailing, hleading]
  refine bind_ok hhead ?_
  dsimp only
  rcases hkind with hprogram | rfl
  · rw [if_pos (beq_iff_eq.2 hprogram)]
    refine bind_ok (mapM_ok (htexts.imp fun _ _ ht => asText_ok ht)) (bind_ok hafter ?_)
    refine bind_ok htail ?_
    rw [hjoin]
    rfl
  · cases htexts
    split
    · refine bind_ok (mapM_ok .nil) (bind_ok hafter (bind_ok htail ?_))
      rw [hjoin]
      rfl
    · refine bind_ok (mapM_ok .nil) (bind_ok hafter (bind_ok htail ?_))
      rw [Text.append_join_nil, hjoin]
      rfl

end

/-- Values that are sorted by keys stay the values they were. -/
theorem sortKeyed {key : Value → Printer (Value × Int)} {values : List Value}
    (h : ∀ value ∈ values, ∃ start, key value context = .ok (value, start)) :
    ∃ children, (values.mapM key >>= fun keyed =>
        pure ((keyed.mergeSort fun a b => a.2 ≤ b.2).map (·.1))) context = .ok children ∧
      ∀ value ∈ children, value ∈ values := by
  obtain ⟨keyed, hkeyed, hvalues⟩ : ∃ keyed, values.mapM key context = .ok keyed ∧
      keyed.map (·.1) = values := by
    induction values with
    | nil => exact ⟨[], rfl, rfl⟩
    | cons value rest ih =>
      obtain ⟨⟨start, hstart⟩, hrest⟩ := forall_mem_cons.1 h
      obtain ⟨keyed, hkeyed, hvalues⟩ := ih hrest
      refine ⟨(value, start) :: keyed, ?_, by rw [map_cons, hvalues]⟩
      rw [mapM_cons]
      exact bind_ok hstart (bind_ok hkeyed rfl)
  refine ⟨_, bind_ok hkeyed rfl, fun value hvalue => ?_⟩
  obtain ⟨pair, hpair, rfl⟩ := mem_map.1 hvalue
  rw [← hvalues]
  exact mem_map_of_mem ((mergeSort_perm _ _).mem_iff.1 hpair)

/-- The children of a node that stands in the source are those that are no holes. -/
theorem children_mem (h : source.Patched text patches) {node : Node} {span : Span}
    (harranged : Arranged span node.childValues) :
    ∃ children, source.children node context = .ok children ∧
      ∀ value ∈ children, value ∈ node.childValues ∧ value ≠ .null := by
  have hmem : ∀ value ∈ node.childValues.filter (fun value => !value.isNull),
      value ∈ node.childValues ∧ value ≠ .null := by
    intro value hvalue
    obtain ⟨hvalue, hnull⟩ := mem_filter.1 hvalue
    refine ⟨hvalue, ?_⟩
    rintro rfl
    cases hnull
  unfold PrintSource.children
  split
  case isFalse => exact ⟨_, rfl, hmem⟩
  case isTrue =>
    -- each part of a template has a start to sort it by
    refine (sortKeyed fun value hvalue => ?_).imp fun children hchildren =>
      ⟨hchildren.1, fun value hvalue => hmem value (hchildren.2 value hvalue)⟩
    rcases harranged.nodes value (hmem value hvalue).1 with hnull | ⟨child, inner, rfl, hinner⟩
    · exact absurd hnull (hmem value hvalue).2
    · refine ⟨inner.start, ?_⟩
      rw [h.extent, hinner]
      rfl

end Printer

/-- A node of a known kind is no documentation. -/
theorem documentKinds_not_contains : ∀ kind ∈ Kind.known,
    kind ≠ .unnamed ∧ Printer.documentKinds.contains kind.text = false := by
  decide

/-- Tokens that no patch reaches into. -/
def Clear (tokens : List Token) (patches : List Patch) : Prop :=
  ∀ token ∈ tokens, token.span.start ≤ token.span.stop ∧ ∀ patch ∈ patches,
    token.span.stop ≤ patch.span.start ∨ patch.span.stop ≤ token.span.start

section
variable {tokens : List Token} {patches : List Patch}

/-- No patch covers an offset inside a token, its ends included. -/
theorem Clear.isCut (h : Clear tokens patches) {token : Token} (hmem : token ∈ tokens)
    {offset : Nat} (hstart : token.span.start ≤ offset) (hstop : offset ≤ token.span.stop) :
    IsCut patches offset := by
  intro patch hpatch
  rcases (h token hmem).2 patch hpatch with hle | hle
  · exact .inl (Nat.le_trans hstop hle)
  · exact .inr (Nat.le_trans hle hstart)

/-- No patch covers the ends of a node that stands between tokens. -/
theorem Bounded.isCut {kind : Kind} {span : Span} (h : Bounded tokens kind span)
    (hclear : Clear tokens patches) :
    IsCut patches span.start ∧ IsCut patches span.stop ∧ span.start ≤ span.stop ∧
      kind ∈ Kind.known := by
  rw [Bounded] at h
  split at h
  case isTrue hkind =>
    obtain ⟨token, hmem, _, hstart, horder, hstop⟩ := h
    exact ⟨hclear.isCut hmem (by omega) (by omega), hclear.isCut hmem (by omega) (by omega),
      horder, by rw [hkind]; decide⟩
  case isFalse =>
    obtain ⟨hform, ⟨first, hfirst, hstart⟩, ⟨last, hlast, hstop⟩, hlt⟩ := h
    rw [← hstart, ← hstop] at hlt ⊢
    exact ⟨hclear.isCut hfirst (Nat.le_refl _) (hclear first hfirst).1,
      hclear.isCut hlast (hclear last hlast).1 (Nat.le_refl _), Nat.le_of_lt hlt,
      Kind.known_of_isForm hform⟩

end

namespace Printer

variable {source : PrintSource} {text : List Char} {patches : List Patch} {context : PrintContext}
  {tokens : List Token}

/-- A block is printed as documentation. -/
theorem level_document {print : Value → Except AccessFault (Option String)} {levels id : Nat}
    {printed : String} (hdocument : source.document = some print)
    (hprint : print (.block id) = .ok (some printed)) :
    level source (levels + 1) (.block id) context = .ok printed := by
  rw [level, step, hdocument]
  change documentForm print (.block id) context = _
  rw [documentForm, hprint]
  rfl

/-- A block is printed as its patch. -/
theorem level_block (h : source.Patched text patches) {levels : Nat} {patch : Patch}
    (hmem : patch ∈ patches) :
    level source (levels + 1) (.block patch.block) context = .ok patch.text := by
  obtain ⟨print, hdocument, hprint⟩ := h.document
  exact level_document hdocument (hprint patch hmem)

/-- A node that is no documentation is printed in its plain form. -/
theorem step_plain {source : PrintSource} {recur : Value → Printer Text} {node : Node}
    (hkind : node.kind ∈ Kind.known) :
    step source recur (.node node) = plainForm source recur (.node node) := by
  obtain ⟨hnamed, hplain⟩ := documentKinds_not_contains node.kind hkind
  have hunnamed : (node.kind == Kind.unnamed) = false := beq_eq_false_iff_ne.2 hnamed
  have hkindText : Value.kindText? (.node node) = some node.kind.text := by
    rw [Value.kindText?, hunnamed]
    rfl
  rw [step, hkindText]
  cases source.document with
  | none => rfl
  | some print =>
    dsimp only
    rw [if_neg (by rw [hplain]; exact Bool.false_ne_true)]

/-- A node that is no documentation and has a place is printed from the source. -/
theorem step_node (h : source.Patched text patches) {recur : Value → Printer Text} {node : Node}
    {span : Span} (hspan : node.span = some span)
    (hkind : node.kind ∈ Kind.known) :
    step source recur (.node node) = sourceForm source text recur node span.start := by
  rw [step_plain hkind, plainForm, h.copies, h.extent, hspan]
  rfl

/-- Values that are arranged in a span are copied, if the nodes among them are printed as what they
cover. -/
theorem copied_of_arranged (hclear : Clear tokens patches) {recur : Value → Printer Text}
    {outer : Span} {values : List Value} (harranged : Arranged outer values)
    (hbelow : ∀ child ∈ values.filterMap Value.node?, Placed tokens child)
    (hrecur : ∀ {child : Node} {span : Span}, .node child ∈ values → Placed tokens child →
      child.span = some span → recur (.node child) context =
        .ok (Text.ofChars (render text patches span.start span.stop)))
    {value : Value} (hmem : value ∈ values) (hnull : value ≠ .null) :
    Copied text patches recur context outer value := by
  rcases harranged.nodes value hmem with hvalue | ⟨child, span, rfl, hspan⟩
  · exact absurd hvalue hnull
  have hchild : child ∈ values.filterMap Value.node? := mem_filterMap.2 ⟨_, hmem, rfl⟩
  have hplaced := hbelow child hchild
  have hinside := harranged.inside span (mem_filterMap.2 ⟨child, hchild, hspan⟩)
  have hprinted := hrecur hmem hplaced hspan
  cases hplaced with
  | intro place bounds _ _ =>
  rw [hspan] at place
  cases place
  obtain ⟨hstart, hstop, _, _⟩ := bounds.isCut hclear
  exact ⟨child, span, rfl, hspan, hinside, hstart, hstop, hprinted⟩

/-- A node that stands in the source is printed as the stretch of the patched text that it
covers. -/
theorem level_placed (h : source.Patched text patches) (hclear : Clear tokens patches) :
    ∀ {levels : Nat} {node : Node} {span : Span}, Placed tokens node → node.span = some span →
      node.height < levels → level source levels (.node node) context =
        .ok (Text.ofChars (render text patches span.start span.stop)) := by
  intro levels
  induction levels with
  | zero => exact fun _ _ hlevels => absurd hlevels (Nat.not_lt_zero _)
  | succ levels ih =>
    intro node span hplaced hspan hlevels
    cases hplaced with
    | intro place bounds arranged below =>
    rw [hspan] at place
    cases place
    obtain ⟨hstart, hstop, horder, hkind⟩ := bounds.isCut hclear
    obtain ⟨children, hchildren, hmem⟩ := children_mem h arranged
    obtain ⟨lower, rfl⟩ := Nat.exists_eq_add_one.2 (Nat.lt_of_lt_of_le node.height_pos
      (Nat.le_of_lt_succ hlevels))
    rw [← append_nil children] at hchildren
    rw [level, step_node h hspan hkind]
    refine sourceForm_eq h (fun patch hpatch => level_block h hpatch) hspan horder hstart hstop
      hchildren (fun value hvalue => ?_) nofun .nil (.inr rfl)
    refine copied_of_arranged hclear arranged below (fun hchild hplaced hinner => ?_)
      (hmem value hvalue).1 (hmem value hvalue).2
    have hlower := Node.valueHeight_lt_height hchild
    rw [Node.valueHeight] at hlower
    exact ih hplaced hinner (by omega)

end Printer

/-- A program is printed with more levels than its tree has. -/
theorem PrintSource.exists_print_eq (source : PrintSource) (root : Node) :
    ∃ levels > root.height, source.print root = Printer.level source levels (.node root) {} := by
  have hle : ∀ (heights : List Nat) (start : Nat), start ≤ heights.foldl (· + ·) start := by
    intro heights
    induction heights with
    | nil => exact Nat.le_refl
    | cons height rest ih => exact fun start => Nat.le_trans (Nat.le_add_right _ _) (ih _)
  exact ⟨_, hle _ _, rfl⟩

/-- A program is printed as its patched source, with the blocks behind it that have no place. -/
theorem PrintSource.print_root {source : PrintSource} {text : List Char} {patches : List Patch}
    {tokens : List Token} {root : Node} {placed : List Value} {ids : List Nat}
    {texts : List String} {print : Value → Except AccessFault (Option String)}
    (h : source.Patched text patches) (hclear : Clear tokens patches)
    (hprint : source.document = some print) (hkind : root.kind = .program)
    (hspan : root.span = some ⟨0, text.length⟩)
    (hvalues : root.childValues = placed ++ ids.map .block)
    (harranged : Arranged ⟨0, text.length⟩ placed)
    (hbelow : ∀ child ∈ placed.filterMap Value.node?, Placed tokens child)
    (hids : ∀ id ∈ ids, (source.extent (.block id)).start = .unset)
    (htexts : List.Forall₂ (fun id text => print (.block id) = .ok (some text)) ids texts) :
    source.print root = .ok (Printer.appendItems
      (Text.ofChars (splice text text.length 0 patches)) (texts.map .ofString)) := by
  obtain ⟨levels, hlevels, hrun⟩ := source.exists_print_eq root
  rw [hrun]
  obtain ⟨lower, rfl⟩ : ∃ lower, levels = lower + 1 + 1 :=
    ⟨levels - 2, by have := root.height_pos; omega⟩
  have hchildren : source.children root {} =
      .ok (placed.filter (fun value => !value.isNull) ++ ids.map .block) := by
    have hblocks : (ids.map Value.block).filter (fun value => !value.isNull) = ids.map .block :=
      filter_eq_self.2 (forall_mem_map.2 fun _ _ => rfl)
    rw [PrintSource.children, hkind, if_neg (by decide), hvalues, filter_append, hblocks]
    rfl
  rw [Printer.level, Printer.step_node h hspan (by rw [hkind]; decide), ← render_all h.apart]
  refine Printer.sourceForm_eq h (fun patch hpatch => Printer.level_block h hpatch) hspan
    (Nat.zero_le _) (fun _ _ => .inl (Nat.zero_le _))
    (fun patch hpatch => .inr (h.apart.inside patch hpatch)) hchildren ?_ ?_ ?_ (.inl hkind)
  · intro value hvalue
    obtain ⟨hmem, hnull⟩ := mem_filter.1 hvalue
    refine Printer.copied_of_arranged hclear harranged hbelow (fun hchild hplaced hinner => ?_) hmem
      (by rintro rfl; cases hnull)
    have hlower : Node.valueHeight _ < root.height :=
      Node.valueHeight_lt_height (hvalues ▸ mem_append_left _ hchild)
    rw [Node.valueHeight] at hlower
    exact Printer.level_placed h hclear hplaced hinner (by omega)
  · intro value hvalue
    obtain ⟨id, hid, rfl⟩ := mem_map.1 hvalue
    rw [Printer.isPlaceless, hids id hid]
  · rw [forall₂_map_left_iff, forall₂_map_right_iff]
    exact htexts.imp fun id text htext => Printer.level_document hprint htext

end DocTypes
