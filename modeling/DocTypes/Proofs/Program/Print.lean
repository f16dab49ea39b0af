import Mathlib.Data.List.Induction
import DocTypes.Proofs.Pass.ClassTypes

/-!
# Printing programs that were read

Whatever passes did to a program that was read from a source, it is printed as the source, with each
of the source's blocks printed anew in the text that it owns, and the blocks that passes made behind
it (`print_reachedFrom`). All that the proof needs of the passes is that they keep the frame of the
program.
-/

namespace DocTypes

open List

/-- A block can always be put into its place. -/
theorem Block.exists_print (block : Block) (program : Program) (isRegistered : Bool) :
    ∃ text, (block.place program isRegistered).print = .ok text := by
  rw [BlockPlace.print]
  split
  · split <;> exact ⟨_, rfl⟩
  · split
    · rw [BlockPlace.printDropped]
      split
      · exact ⟨_, rfl⟩
      · split <;> exact ⟨_, rfl⟩
    · rw [show (block.place program isRegistered).isModified = .ok (block.isModified program.types)
        from rfl]
      cases block.isModified program.types
      · exact ⟨_, rfl⟩
      · exact ⟨_, rfl⟩

/-- A block that is registered and was not changed is printed as the text that it owns. -/
theorem Block.print_unmodified {block : Block} {program : Program}
    {source : List Char} {span : Span}
    (hsource : program.source = some source) (hspan : block.span = some span)
    (h : block.isModified program.types = false) :
    (block.place program true).print = .ok (String.ofList (span.text source)) := by
  have hown : block.ownText program = span.text source := by
    rw [Block.ownText, hsource, hspan]
  rw [BlockPlace.print]
  simp only [Block.place, hspan, Option.map_some, h, hown]
  rfl

section
variable {source : List Char} {comments : List Comment} {blocks : List Block} {low : Nat}

section
variable (h : LaidOutFrom source low comments blocks)
include h

/-- Each of the blocks owns a span. -/
theorem LaidOutFrom.exists_span : ∀ block ∈ blocks, ∃ span, block.span = some span := by
  induction h with
  | nil => exact nofun
  | cons here _ _ ih => exact forall_mem_cons.2 ⟨⟨_, here.place⟩, ih⟩

/-- Patches in the place of what blocks own stand one after the other. -/
theorem LaidOutFrom.patches (hstands : ∀ comment ∈ comments, comment.Stands source) :
    ∀ {patches : List Patch},
      List.Forall₂ (fun block patch => block.span = some patch.span) blocks patches →
      Patches source.length patches ∧ ∀ patch ∈ patches, low ≤ patch.span.start := by
  induction h with
  | nil =>
    intro patches hp
    cases hp
    exact ⟨⟨.nil, nofun, nofun⟩, nofun⟩
  | cons here after later ih =>
    intro patches hp
    cases hp with
    | cons hspan hrest =>
    obtain ⟨hcomment, hcomments⟩ := forall_mem_cons.1 hstands
    obtain ⟨hpatches, hlow⟩ := ih hcomments hrest
    rw [here.place] at hspan
    cases hspan
    have hsolid := hcomment.stop_le.1
    have hstart := here.start
    have hstop := here.stop
    refine ⟨⟨.cons hlow hpatches.ordered, forall_mem_cons.2 ⟨?_, hpatches.solid⟩,
      forall_mem_cons.2 ⟨here.inside, hpatches.inside⟩⟩, forall_mem_cons.2 ⟨after, ?_⟩⟩
    · omega
    · intro patch hmem
      have := hlow patch hmem
      omega

/-- No token reaches into what blocks own. -/
theorem LaidOutFrom.clear {tokens : List Token}
    (htokens : ∀ token ∈ tokens, token.Stands source ∧ ∀ comment ∈ comments,
      token.span.stop ≤ comment.span.start ∨ comment.span.stop ≤ token.span.start) :
    ∀ {patches : List Patch},
      List.Forall₂ (fun block patch => block.span = some patch.span) blocks patches →
      Clear tokens patches := by
  induction h with
  | nil =>
    intro patches hp
    cases hp
    exact fun token hmem => ⟨Nat.le_of_lt (htokens token hmem).1.lt, nofun⟩
  | cons here after later ih =>
    intro patches hp
    cases hp with
    | cons hspan hrest =>
    rw [here.place] at hspan
    cases hspan
    have hclear := ih (fun token hmem => ⟨(htokens token hmem).1,
      fun comment hcomment => (htokens token hmem).2 comment (.tail _ hcomment)⟩) hrest
    intro token hmem
    obtain ⟨hstands, hapart⟩ := htokens token hmem
    exact ⟨(hclear token hmem).1, forall_mem_cons.2
      ⟨here.apart hstands (hapart _ (.head _)), (hclear token hmem).2⟩⟩

end

end

namespace Program

/-- The patch puts a block of the source into the place of the text that it owns. -/
def IsPatch (program : Program) (id : Nat) (patch : Patch) : Prop :=
  patch.block = id ∧ ∃ block, program.block? id = some block ∧ block.span = some patch.span ∧
    (block.place program (program.registered.contains id)).print = .ok patch.text

/-- The text is that of a block that has no place in the source. -/
def IsAppended (program : Program) (id : Nat) (text : String) : Prop :=
  ∃ block, program.block? id = some block ∧ block.span = none ∧
    (block.place program (program.registered.contains id)).print = .ok text

/-- The blocks that stand among the statements of a program. -/
def bodyBlocks (program : Program) : List Nat :=
  program.root.childValues.filterMap blockId?

/-- A program is printed as the patched source, with texts behind it. -/
structure PrintsAs (program : Program) (source : List Char) (patches : List Patch)
    (texts : List String) : Prop where
  sourceBlocks : List.Forall₂ program.IsPatch program.sourceBlocks patches
  bodyBlocks : List.Forall₂ program.IsAppended program.bodyBlocks texts
  apart : Patches source.length patches
  print : program.print (some source) true = .ok (Printer.appendItems
    (Text.ofChars (splice source source.length 0 patches)) (texts.map .ofString))

variable {program first : Program} {source : List Char} {pieces : List Piece} {lexed : Lexed}
  {blocks : List Block} {patches : List Patch}

/-- The blocks of the source are still there, laid out as they were. -/
theorem Frame.exists_blocks (hread : first.ReadFrom source pieces lexed)
    (h : first.Frame program) : ∃ blocks : List Block,
      List.Forall₂ (fun id block => program.block? id = some block) program.sourceBlocks blocks ∧
      List.Forall₂ Block.SameLayout first.blocks.toList blocks := by
  rw [h.sourceBlocks, hread.sourceBlocks, ← Array.length_toList]
  have hblocks : ∀ id block, first.blocks.toList[id]? = some block →
      ∃ block', program.block? id = some block' ∧ block.SameLayout block' :=
    fun id block hblock => h.blocks id block (by rw [← Array.getElem?_toList, hblock])
  generalize first.blocks.toList = before at hblocks
  induction before using List.reverseRecOn with
  | nil => exact ⟨[], .nil, .nil⟩
  | append_singleton before block ih =>
    obtain ⟨blocks, hfound, hsame⟩ := ih fun id other hother =>
      hblocks id other (by
        rw [List.getElem?_append_left (List.getElem?_eq_some_iff.1 hother).1, hother])
    obtain ⟨block', hblock', hs⟩ := hblocks before.length block getElem?_concat_length
    refine ⟨blocks ++ [block'], ?_, rel_append hsame (.cons hs .nil)⟩
    rw [length_append, length_singleton, range_succ]
    exact rel_append hfound (.cons hblock' .nil)

/-- Each of the source's blocks has its patch. -/
theorem exists_patches {ids : List Nat}
    (hfound : List.Forall₂ (fun id block => program.block? id = some block) ids blocks)
    (hspans : ∀ block ∈ blocks, ∃ span, block.span = some span) :
    ∃ patches : List Patch, List.Forall₂ program.IsPatch ids patches ∧
      List.Forall₂ (fun block patch => block.span = some patch.span) blocks patches := by
  induction hfound with
  | nil => exact ⟨[], .nil, .nil⟩
  | @cons id block _ _ hblock _ ih =>
    obtain ⟨⟨span, hspan⟩, hrest⟩ := forall_mem_cons.1 hspans
    obtain ⟨patches, hpatches, hplaces⟩ := ih hrest
    obtain ⟨text, htext⟩ := block.exists_print program (program.registered.contains id)
    exact ⟨⟨id, span, text⟩ :: patches, .cons ⟨rfl, block, hblock, hspan, htext⟩ hpatches,
      .cons hspan hplaces⟩

/-- Each block without a place has its text. -/
theorem exists_texts {ids : List Nat} (h : ∀ id ∈ ids, program.IsPlaceless id) :
    ∃ texts : List String, List.Forall₂ program.IsAppended ids texts := by
  induction ids with
  | nil => exact ⟨[], .nil⟩
  | cons id rest ih =>
    obtain ⟨⟨block, hblock, hspan⟩, hrest⟩ := forall_mem_cons.1 h
    obtain ⟨texts, htexts⟩ := ih hrest
    obtain ⟨text, htext⟩ := block.exists_print program (program.registered.contains id)
    exact ⟨text :: texts, .cons ⟨block, hblock, hspan, htext⟩ htexts⟩

/-- A block is documented by the text that puts it into its place. -/
theorem printDocument_block {id : Nat} {block : Block} {text : String}
    (hblock : program.block? id = some block)
    (htext : (block.place program (program.registered.contains id)).print = .ok text) :
    program.printDocument (.block id) = .ok (some text) := by
  simp only [printDocument, hblock, htext]
  rfl

/-- The printer knows the blocks of the source in their order. -/
theorem sourceSpans_eq {length : Nat}
    (h : List.Forall₂ program.IsPatch program.sourceBlocks patches)
    (hapart : Patches length patches) : program.sourceSpans = patches.map fun patch =>
      ⟨.block patch.block, patch.span.start, patch.span.stop⟩ := by
  have hfound : (program.sourceBlocks.filterMap fun id =>
      ((program.block? id).bind Block.span).map fun span =>
        (⟨.block id, span.start, span.stop⟩ : SourceBlock)) =
      patches.map fun patch => ⟨.block patch.block, patch.span.start, patch.span.stop⟩ := by
    clear hapart
    generalize program.sourceBlocks = ids at h
    induction h with
    | nil => rfl
    | cons hpatch _ ih =>
      obtain ⟨rfl, block, hblock, hspan, _⟩ := hpatch
      rw [filterMap_cons, hblock, Option.bind_some, hspan, ih]
      rfl
  rw [sourceSpans, hfound]
  refine mergeSort_of_pairwise (pairwise_map.2 (hapart.sorted.imp fun hle => ?_))
  exact decide_eq_true (Int.ofNat_le.2 hle)

/-- What a printer knows of a program whose blocks have patches. -/
theorem patched_printSource
    (h : List.Forall₂ program.IsPatch program.sourceBlocks patches)
    (hapart : Patches source.length patches) :
    (program.printSource (some source) true).Patched source patches where
  copies := rfl
  apart := hapart
  blocks := sourceSpans_eq h hapart
  document := by
    refine ⟨_, rfl, fun patch hmem => ?_⟩
    obtain ⟨id, _, rfl, block, hblock, _, htext⟩ := exists_mem_of_forall₂ h hmem
    exact printDocument_block hblock htext
  extent _ := rfl

/-- Behind the statements of a program that was read stand the blocks that passes made. -/
theorem Frame.childValues (hread : first.ReadFrom source pieces lexed) (h : first.Frame program) :
    ∃ ids : List Nat, program.root.childValues = first.root.childValues ++ ids.map .block ∧
      program.bodyBlocks = ids ∧ ∀ id ∈ ids, program.IsPlaceless id := by
  obtain ⟨items, hitems⟩ := hread.rooted.body
  obtain ⟨ids, hbody, hids⟩ := h.body items hitems
  have hfirst := childValues_of_body hread.rooted.kind hitems
  have hprogram := childValues_of_body (h.kind.trans hread.rooted.kind) hbody
  refine ⟨ids, by rw [hprogram, hfirst], ?_, hids⟩
  -- no statement is a block
  have hnone : items.filterMap blockId? = [] := by
    refine filterMap_eq_nil_iff.2 fun value hmem => ?_
    rw [← hfirst] at hmem
    rcases hread.rooted.arranged.nodes value hmem with rfl | ⟨node, span, rfl, _⟩ <;> rfl
  rw [bodyBlocks, hprogram, filterMap_append, hnone, nil_append, filterMap_map]
  exact filterMap_some

/-- A program that has the frame of one that was read is printed as the patched source. -/
theorem Frame.printsAs (hread : first.ReadFrom source pieces lexed) (h : first.Frame program) :
    ∃ blocks patches texts,
      List.Forall₂ (fun id block => program.block? id = some block) program.sourceBlocks blocks ∧
      List.Forall₂ Block.SameLayout first.blocks.toList blocks ∧
      List.Forall₂ (fun block patch => block.span = some patch.span) blocks patches ∧
      program.PrintsAs source patches texts := by
  obtain ⟨blocks, hfound, hsame⟩ := h.exists_blocks hread
  have hlaid := hread.laidOut.of_sameLayout hsame
  obtain ⟨patches, hpatches, hplaces⟩ := exists_patches hfound hlaid.exists_span
  obtain ⟨ids, hvalues, hids, hplaceless⟩ := h.childValues hread
  obtain ⟨texts, htexts⟩ := exists_texts hplaceless
  have hstands : ∀ comment ∈ lexed.comments.filter Comment.isDoc, comment ∈ lexed.comments :=
    fun comment hmem => (mem_filter.1 hmem).1
  have hapart := (hlaid.patches
    (fun comment hmem => hread.shows.comment_stands hread.lexes (hstands comment hmem)) hplaces).1
  have hclear : Clear lexed.tokens patches := hlaid.clear (fun token htoken =>
    ⟨hread.shows.token_stands hread.lexes htoken, fun comment hmem =>
      hread.shows.apart hread.lexes htoken (hstands comment hmem)⟩) hplaces
  refine ⟨blocks, patches, texts, hfound, hsame, hplaces, hpatches, hids ▸ htexts, hapart, ?_⟩
  refine PrintSource.print_root (patched_printSource hpatches hapart) hclear rfl
    (h.kind.trans hread.rooted.kind) (h.span.trans hread.rooted.span) hvalues
    hread.rooted.arranged hread.rooted.below (fun id hid => ?_) (htexts.imp fun id text htext => ?_)
  · obtain ⟨block, hblock, hspan⟩ := hplaceless id hid
    change (Extent.ofSpan? ((program.block? id).bind Block.span)).start = .unset
    rw [hblock, Option.bind_some, hspan]
    rfl
  · obtain ⟨block, hblock, _, htext⟩ := htext
    exact printDocument_block hblock htext

/-- The patches stand in the spans that the blocks had when they were read. -/
theorem spans_eq {before : List Block} (hsame : List.Forall₂ Block.SameLayout before blocks) :
    ∀ {patches : List Patch},
      List.Forall₂ (fun block patch => block.span = some patch.span) blocks patches →
      before.map Block.span = patches.map fun patch => some patch.span := by
  induction hsame with
  | nil =>
    intro patches hplaces
    cases hplaces
    rfl
  | cons hs _ ih =>
    intro patches hplaces
    cases hplaces with
    | cons hspan hplaces => rw [map_cons, map_cons, ih hplaces, ← hs.span, hspan]

/-- Whatever passes made of a program that was read, it is printed as the source, where each of the
blocks that were read stands anew in the text that it owned then, and the blocks among the
statements, which have no place, follow. -/
theorem print_reachedFrom (hread : Program.read source = .ok first)
    (h : first.ReachedFrom program) :
    ∃ patches texts, program.PrintsAs source patches texts ∧
      program.sourceBlocks = List.range first.blocks.size ∧
      first.blocks.toList.map Block.span = patches.map fun patch => some patch.span := by
  obtain ⟨pieces, lexed, hfirst⟩ := readFrom_of_read hread
  obtain ⟨blocks, patches, texts, _, hsame, hplaces, hprints⟩ := (h.frame hread).printsAs hfirst
  exact ⟨patches, texts, hprints, (h.frame hread).sourceBlocks.trans hfirst.sourceBlocks,
    spans_eq hsame hplaces⟩

/-- A source with a local type, a reference to it, and an exported class. -/
def localAndExported : List Char :=
  ("/** @local\n * @typedef \x7bnumber\x7d N */\n/** @type \x7bN\x7d */\nlet x;\n" ++
    "function f() \x7b\n  /** @export */\n  return class A \x7b\x7d;\n\x7d\n").toList

/-- The source is read, its type is inlined, and its class gets a type. -/
theorem print_reachedFrom_localAndExported : ∃ first program,
    Program.read localAndExported = .ok first ∧ first.ReachedFrom program ∧
      ∃ patches texts, program.PrintsAs localAndExported patches texts ∧
        program.sourceBlocks = List.range first.blocks.size ∧
        first.blocks.toList.map Block.span = patches.map fun patch => some patch.span := by
  have hok : ((Program.read localAndExported).toOption.any fun _ => true) = true := by
    decide +kernel
  obtain ⟨first, hread, -⟩ := exists_eq_ok_of_any hok
  obtain ⟨program, hreached⟩ : ∃ program, first.ReachedFrom program :=
    ⟨_, .synthesize _ {} (.inlineTypedefs ⟨first, []⟩ .refl)⟩
  exact ⟨first, program, hread, hreached, print_reachedFrom hread hreached⟩

end Program

end DocTypes
