import DocTypes.Proofs.Transform.Unchanged

/-!
# Lines of local blocks

When blocks with nothing but `@local` are removed that stand alone on their lines, these lines are
taken out of the source, and nothing else (`generate_removeLocals`). Directly behind another block
one does not own the line break before it and leaves a break of its own; in a run of such blocks at
the top of the file all that these leave are blank lines.
-/

namespace DocTypes

open List

/-! ## Blocks that are dropped -/

/-- White space that ends in a line break, or nothing. -/
def BlankLines (text : List Char) : Prop :=
  (∀ c ∈ text, isBlank c = true) ∧ (text = [] ∨ ∃ front, text = front ++ ['\n'])

/-- The patch takes the lines of a comment out of the source, with the line break at their end. They
start the source, or stand behind a line break. What its place holds behind them is kept. -/
def Patch.TakesLines (source : List Char) (patch : Patch) : Prop :=
  ∃ (comment : Comment) (first before after kept : List Char), comment.Stands source ∧
    (first = [] ∧ patch.span.start = 0 ∨ first = ['\n']) ∧
    (∀ c ∈ before ++ after, isBlank c = true ∧ c ≠ '\n') ∧
    patch.span.text source =
      first ++ (before ++ comment.span.text source ++ after ++ ['\n']) ++ kept ∧
    patch.text.toList = first ++ kept

/-- All items have a property, or one of them is the last that has not. -/
theorem exists_last {α : Type} (p : α → Prop) : ∀ items : List α, (∀ item ∈ items, p item) ∨
    ∃ front last back, items = front ++ last :: back ∧ ¬p last ∧ ∀ item ∈ back, p item
  | [] => .inl nofun
  | item :: rest => by
    rcases exists_last p rest with hall | ⟨front, last, back, rfl, hlast, hback⟩
    · by_cases hitem : p item
      · exact .inl (forall_mem_cons.2 ⟨hitem, hall⟩)
      · exact .inr ⟨[], item, rest, rfl, hitem, hall⟩
    · exact .inr ⟨item :: front, last, back, rfl, hlast, hback⟩

/-- What follows the last line break of a text. -/
theorem BlockPlace.nextIndent_append {front line : List Char} (h : '\n' ∉ line) :
    nextIndent (front ++ '\n' :: line) = String.ofList line := by
  have hlength : lastLineLength (front ++ '\n' :: line) = line.length := by
    rw [lastLineLength_append, if_pos (by simp), ← singleton_append, lastLineLength_append,
      if_neg (by simpa using h)]
    exact Nat.zero_add _
  rw [nextIndent, hlength, length_append, length_cons, ← singleton_append, ← append_assoc]
  congr 1
  exact drop_left' (by simp; omega)

/-- Behind a comment with a line break behind it blanks go up to the line break. -/
theorem TrailShape.exists_break {trail : List Char} (h : TrailShape true trail) :
    ∃ after kept, trail = after ++ '\n' :: kept ∧ (∀ c ∈ after, isBlank c = true ∧ c ≠ '\n') ∧
      '\n' ∉ kept := by
  have hindent : ∀ {part : List Char}, part.all isIndent = true →
      ∀ c ∈ part, isBlank c = true ∧ c ≠ '\n' := by
    intro part hpart c hc
    rcases Bool.or_eq_true_iff.1 (all_eq_true.1 hpart c hc) with h | h <;>
      rw [beq_iff_eq.1 h] <;> decide
  obtain ⟨blanks, _, kept, rfl, hblanks, hbreak, hkept⟩ := h
  have hnone : '\n' ∉ kept := fun hmem => (hindent hkept _ hmem).2 rfl
  rcases hbreak with rfl | rfl
  · exact ⟨blanks, kept, by simp, hindent hblanks, hnone⟩
  · refine ⟨blanks ++ ['\r'], kept, by simp, forall_mem_append.2 ⟨hindent hblanks, ?_⟩, hnone⟩
    exact forall_mem_singleton.2 (by decide)

/-- The block starts its lines: it owns a line break before its comment, or starts the source. -/
def Block.startsLines (block : Block) : Bool :=
  block.leadingBreak || block.span.any (·.start == 0)

section
variable {source lead trail : List Char} {program : Program} {comment : Comment} {block : Block}

/-- Where a block is dropped that has a line break behind it, what it owns behind that is kept,
after a line break unless the block starts the source. -/
theorem Block.LaidOut.print_dropped {span : Span} {text : String}
    (h : block.LaidOut source comment span lead trail) (hstands : comment.Stands source)
    (htrailing : block.trailingBreak = true)
    (hprint : (block.place program false).print = .ok text)
    (hsource : program.source = some source) : ∃ after kept, trail = after ++ '\n' :: kept ∧
      (∀ c ∈ after, isBlank c = true ∧ c ≠ '\n') ∧
      span.text source = lead ++ comment.span.text source ++ after ++ '\n' :: kept ∧
      text.toList = (if block.leadingBreak || decide (0 < span.start) then ['\n'] else []) ++
        kept := by
  obtain ⟨after, kept, htrail, hafter, hkept⟩ := (htrailing ▸ h.trail_shape).exists_break
  have hown : span.text source = lead ++ comment.span.text source ++ after ++ '\n' :: kept := by
    have hstart := h.start
    have hstop := h.stop
    have hlt := hstands.stop_le.1
    rw [append_assoc, ← htrail, ← h.lead_text, ← h.trail_text, Span.text, Span.text,
      slice_append (by omega) (by omega), slice_append (by omega) (by omega)]
  refine ⟨after, kept, htrail, hafter, hown, ?_⟩
  have hnext : BlockPlace.nextIndent (block.ownText program) = String.ofList kept := by
    rw [Block.ownText, hsource, h.place]
    dsimp only
    rw [hown]
    exact BlockPlace.nextIndent_append hkept
  have htext : (block.place program false).print =
      .ok ((if block.leadingBreak || decide (0 < span.start) then "\n" else "") ++
        String.ofList kept) := by
    have hpos : decide (0 < (span.start : Int)) = decide (0 < span.start) :=
      decide_eq_decide.2 Int.natCast_pos
    rw [BlockPlace.print]
    simp only [Block.place, h.place, Option.map_some, BlockPlace.printDropped, htrailing,
      Bool.true_and, hpos, ← hnext]
    rfl
  cases htext.symm.trans hprint
  rw [String.toList_append, String.toList_ofList]
  split <;> rfl

/-- A dropped block that starts its lines and ends them takes its lines out of the source. -/
theorem Block.LaidOut.takesLines {patch : Patch}
    (h : block.LaidOut source comment patch.span lead trail) (hstands : comment.Stands source)
    (htrailing : block.trailingBreak = true) (hstarts : block.startsLines = true)
    (hprint : (block.place program false).print = .ok patch.text)
    (hsource : program.source = some source) : patch.TakesLines source := by
  obtain ⟨after, kept, -, hafter, hown, htext⟩ := h.print_dropped hstands htrailing hprint hsource
  obtain ⟨before, hlead, hbefore, hnone⟩ := h.lead_shape
  rw [startsLines, h.place, Option.any_some] at hstarts
  have hbreak : (block.leadingBreak || decide (0 < patch.span.start)) = block.leadingBreak := by
    rcases Bool.or_eq_true_iff.1 hstarts with h | h
    · rw [h, Bool.true_or]
    · rw [beq_iff_eq.1 h]
      exact Bool.or_false _
  rw [hbreak] at htext
  refine ⟨comment, if block.leadingBreak then ['\n'] else [], before, after, kept, hstands, ?_,
    forall_mem_append.2 ⟨?_, hafter⟩, ?_, htext⟩
  · cases hleading : block.leadingBreak with
    | false =>
      rw [hleading, Bool.false_or] at hstarts
      exact .inl ⟨rfl, beq_iff_eq.1 hstarts⟩
    | true => exact .inr rfl
  · exact fun c hc => ⟨all_eq_true.1 hbefore c hc, fun hline => hnone (hline ▸ hc)⟩
  · rw [hown, hlead]
    simp only [append_assoc, singleton_append]

end

/-! ## The source without local blocks -/

namespace Program

/-- Before the offset there is nothing but white space and blocks with nothing but `@local`. -/
def isClearTo (program : Program) (source : List Char) (offset : Nat) : Bool :=
  (List.range offset).all fun i => source[i]?.any isBlank ||
    program.blocks.toList.any fun block => block.isLocalOnly &&
      block.span.any fun span => decide (span.start ≤ i) && decide (i < span.stop)

/-- The block owns its lines: it ends them, and has a line break before it, or nothing that stays.
-/
def ownsLines (program : Program) (source : List Char) (block : Block) : Bool :=
  block.trailingBreak && (block.leadingBreak ||
    block.span.any fun span => program.isClearTo source span.start)

/-- The patch takes the lines of the block out if it has nothing but `@local`, and keeps its text if
not. -/
def RemovesLocal (program : Program) (source : List Char) (patch : Patch) : Prop :=
  ∃ block, program.block? patch.block = some block ∧ block.span = some patch.span ∧
    if block.isLocalOnly then patch.TakesLines source
    else patch.text.toList = patch.span.text source

/-- The text is the source without the lines of the blocks with nothing but `@local`. Up to the line
that starts at `top`, the source has nothing but white space and such blocks, and in their place
there are blank lines. Behind that there is a patch for each block, and these take the lines out. -/
structure LinesRemoved (program : Program) (source text : List Char) (top : Nat)
    (blank : List Char) (patches : List Patch) : Prop where
  line : top = 0 ∨ source[top - 1]? = some '\n'
  clear : program.isClearTo source top = true
  blocks : ∃ count, patches.map Patch.block = (List.range program.blocks.size).drop count ∧
    ∀ id ∈ (List.range program.blocks.size).take count,
      (program.block? id).any Block.isLocalOnly = true
  behind : ∀ patch ∈ patches, top ≤ patch.span.start
  apart : Patches source.length patches
  removes : ∀ patch ∈ patches, program.RemovesLocal source patch
  blankLines : BlankLines blank
  text_eq : text = blank ++ splice source source.length top patches

/-- The patch is what is printed in the place of a block when local blocks are removed. -/
structure PrintsWithout (program : Program) (source : List Char) (patch : Patch) (block : Block)
    (comment : Comment) (lead trail : List Char) : Prop where
  found : program.block? patch.block = some block
  laidOut : block.LaidOut source comment patch.span lead trail
  stands : comment.Stands source
  text : if block.isLocalOnly then
      (block.place program.withoutLocalOnly false).print = .ok patch.text
    else patch.text.toList = patch.span.text source

/-- The patches are what is printed in the places of the blocks of a program that was read, when the
local ones are removed. -/
structure PrintedWithout (program : Program) (source : List Char) (patches : List Patch) :
    Prop where
  source_eq : program.source = some source
  apart : Patches source.length patches
  blocks : patches.map Patch.block = List.range program.blocks.size
  prints : ∀ patch ∈ patches, ∃ block comment lead trail,
    program.PrintsWithout source patch block comment lead trail

variable {program : Program} {source : List Char}

theorem isClearTo_iff {offset : Nat} : program.isClearTo source offset = true ↔ ∀ i < offset,
    (∃ c, source[i]? = some c ∧ isBlank c = true) ∨ ∃ block ∈ program.blocks.toList,
      block.isLocalOnly = true ∧ ∃ span, block.span = some span ∧ span.start ≤ i ∧
      i < span.stop := by
  simp only [isClearTo, all_eq_true, mem_range, Bool.or_eq_true, Option.any_eq_true, any_eq_true,
    Bool.and_eq_true, decide_eq_true_eq]

/-- What is printed when the local blocks of a program that was read are removed. -/
theorem exists_printedWithout (hread : Program.read source = .ok program) :
    ∃ patches, program.withoutLocalOnly.print (some source) true =
        .ok (.ofChars (splice source source.length 0 patches)) ∧
      program.PrintedWithout source patches := by
  obtain ⟨pieces, lexed, hfirst⟩ := readFrom_of_read hread
  have hframe := (ReachedFrom.removeLocals ⟨program, []⟩ .refl).frame hread
  rw [show (Pass.removeLocals : Pass Program Nat).run.run _ = _ from
    ReachedFrom.run_removeLocals hread .refl []] at hframe
  obtain ⟨patches, hpatches, hapart, hprint⟩ := hfirst.exists_print hframe rfl
  rw [show program.withoutLocalOnly.sourceBlocks = _ from hfirst.sourceBlocks] at hpatches
  refine ⟨patches, hprint, hfirst.text, hapart, ?_, fun patch hmem => ?_⟩
  · have hblocks := hpatches.imp fun _ _ hpatch => hpatch.1.symm
    rw [← forall₂_map_right_iff, forall₂_eq_eq_eq] at hblocks
    exact hblocks.symm
  obtain ⟨_, hid, rfl, block, hblock, hspan, htext⟩ := exists_mem_of_forall₂ hpatches hmem
  have hblock : program.block? patch.block = some block := hblock
  obtain ⟨comment, hcomment, span, lead, trail, hlaid⟩ := exists_mem_of_forall₂
    hfirst.laidOut.forall₂ (Array.mem_toList_iff.2 (Array.mem_of_getElem? hblock))
  obtain rfl : span = patch.span := Option.some.inj (hlaid.place.symm.trans hspan)
  have hregistered : program.withoutLocalOnly.registered.contains patch.block =
      !block.isLocalOnly := by
    rw [Bool.eq_iff_iff, contains_iff_mem, withoutLocalOnly, mem_filter, hblock]
    exact and_iff_right (hfirst.registered ▸ hid)
  refine ⟨block, comment, lead, trail, hblock, hlaid,
    hfirst.shows.comment_stands hfirst.lexes (mem_filter.1 hcomment).1, ?_⟩
  rw [hregistered] at htext
  cases hlocal : block.isLocalOnly with
  | true =>
    rw [hlocal] at htext
    exact htext
  | false =>
    have hsource : program.withoutLocalOnly.source = some source := hfirst.text
    rw [hlocal, Bool.not_false,
      Block.print_unmodified hsource hspan (hfirst.isModified hblock)] at htext
    rw [if_neg Bool.false_ne_true, ← Except.ok.inj htext, String.toList_ofList]

section
variable {patch last : Patch} {patches front back : List Patch} {block : Block} {comment : Comment}
  {lead trail : List Char} {offset : Nat}

/-- A local block whose lines start and end with it takes them out, and other blocks stay. -/
theorem PrintsWithout.removesLocal (h : program.PrintsWithout source patch block comment lead trail)
    (hsource : program.source = some source)
    (hlines : block.isLocalOnly = true → block.trailingBreak = true ∧ block.startsLines = true) :
    program.RemovesLocal source patch := by
  have htext := h.text
  refine ⟨block, h.found, h.laidOut.place, ?_⟩
  split at htext
  · rename_i hlocal
    rw [if_pos hlocal]
    obtain ⟨htrailing, hstarts⟩ := hlines hlocal
    exact h.laidOut.takesLines h.stands htrailing hstarts htext hsource
  · rename_i hlocal
    rwa [if_neg hlocal]

/-! ### A run of local blocks at the top -/

variable (h : program.PrintedWithout source patches)
include h

/-- Before an offset with nothing before it that stays, there is white space, or the patch of a
local block. -/
theorem PrintedWithout.blank_or_local (hclear : program.isClearTo source offset = true) {i : Nat}
    (hi : i < offset) : (∃ c, source[i]? = some c ∧ isBlank c = true) ∨
      ∃ patch ∈ patches, (program.block? patch.block).any Block.isLocalOnly = true ∧
        patch.span.start ≤ i ∧ i < patch.span.stop := by
  refine (isClearTo_iff.1 hclear i hi).imp_right ?_
  rintro ⟨block, hmem, hlocal, span, hspan, hholds⟩
  obtain ⟨id, hid⟩ := mem_iff_getElem?.1 hmem
  rw [Array.getElem?_toList] at hid
  have hrange : id ∈ patches.map Patch.block := by
    rw [h.blocks, mem_range]
    exact (Array.getElem?_eq_some_iff.1 hid).1
  obtain ⟨patch, hpatch, rfl⟩ := mem_map.1 hrange
  obtain ⟨_, _, _, _, hprint⟩ := h.prints patch hpatch
  cases hprint.found.symm.trans hid
  cases hprint.laidOut.place.symm.trans hspan
  refine ⟨patch, hpatch, ?_, hholds⟩
  rw [hprint.found]
  exact hlocal

/-- Where nothing before an offset stays, all blocks before it are local. -/
theorem PrintedWithout.isLocal (hclear : program.isClearTo source offset = true)
    (hmem : patch ∈ patches) (hbefore : patch.span.stop ≤ offset) :
    (program.block? patch.block).any Block.isLocalOnly = true := by
  obtain ⟨block, comment, lead, trail, hprint⟩ := h.prints patch hmem
  have hlt := hprint.stands.stop_le.1
  have hstart := hprint.laidOut.start
  have hstop := hprint.laidOut.stop
  obtain ⟨c, hc, -, hsolid⟩ := hprint.stands.first
  rcases h.blank_or_local hclear (show comment.span.start < offset by omega) with
    ⟨c', hc', hblank⟩ | ⟨other, hother, hlocal, hin⟩
  · -- a comment does not start with white space
    rw [hc] at hc'
    cases hc'
    rw [hblank] at hsolid
    cases hsolid
  · obtain rfl : patch = other := by
      by_contra hne
      let apart (first second : Patch) : Prop :=
        first.span.stop ≤ second.span.start ∨ second.span.stop ≤ first.span.start
      have hsymm : Std.Symm apart := ⟨fun _ _ => Or.symm⟩
      have hall : patches.Pairwise apart := h.apart.ordered.imp .inl
      rcases hall.forall hmem hother hne with h | h <;> omega
    exact hlocal

variable (hends : ∀ block ∈ program.blocks, block.isLocalOnly = true → block.trailingBreak = true)
include hends

/-- What is printed before an offset with nothing before it that stays is white space. -/
theorem PrintedWithout.isBlank (hpatches : patches = front ++ last :: back)
    (hclear : program.isClearTo source last.span.start = true) :
    ∀ c ∈ splice source last.span.start 0 front, isBlank c = true := by
  intro c hc
  have hordered := h.apart.ordered
  rw [hpatches] at hordered
  obtain ⟨hfrontOrdered, hbackOrdered, hbetween⟩ := pairwise_append.1 hordered
  have hmem : ∀ patch ∈ front, patch ∈ patches := fun patch hpatch =>
    hpatches ▸ mem_append_left _ hpatch
  have hfront : Patches last.span.start front := ⟨hfrontOrdered,
    fun patch hpatch => h.apart.solid patch (hmem patch hpatch),
    fun patch hpatch => hbetween patch hpatch last (.head _)⟩
  rcases mem_splice hfront (fun _ _ => Nat.zero_le _) hc with
    ⟨i, -, hi, hat, hout⟩ | ⟨patch, hpatch, hc⟩
  · rcases h.blank_or_local hclear hi with ⟨c', hc', hblank⟩ | ⟨patch, hpatch, -, hstart, hstop⟩
    · rw [hat] at hc'
      cases hc'
      exact hblank
    · -- a patch that holds the offset stands before the last one
      rw [hpatches] at hpatch
      rcases mem_append.1 hpatch with hpatch | hpatch
      · have := hout patch hpatch
        omega
      · rcases mem_cons.1 hpatch with rfl | hpatch
        · omega
        · have hsolid := h.apart.solid last (hpatches ▸ mem_append_right _ (.head _))
          have := (pairwise_cons.1 hbackOrdered).1 patch hpatch
          omega
  · obtain ⟨block, comment, lead, trail, hprint⟩ := h.prints patch (hmem patch hpatch)
    have hlocal := h.isLocal hclear (hmem patch hpatch) (hfront.inside patch hpatch)
    rw [hprint.found, Option.any_some] at hlocal
    have htext := hprint.text
    rw [hlocal, if_pos rfl] at htext
    obtain ⟨after, kept, htrail, -, -, hkept⟩ := hprint.laidOut.print_dropped hprint.stands
      (hends block (Array.mem_of_getElem? hprint.found) hlocal) htext h.source_eq
    rw [hkept] at hc
    rcases mem_append.1 hc with hc | hc
    · split at hc
      · rw [mem_singleton.1 hc]
        decide
      · cases hc
    · exact TrailShape.blank hprint.laidOut.trail_shape c (htrail ▸ by simp [hc])

/-- If a local block at the top does not start its lines, all that is printed up to the end of these
are blank lines. -/
theorem PrintedWithout.exists_top (hpatches : patches = front ++ last :: back)
    (hprint : program.PrintsWithout source last block comment lead trail)
    (hlocal : block.isLocalOnly = true) (hstarts : block.startsLines = false)
    (hclear : program.isClearTo source last.span.start = true) :
    ∃ top blank, (top = 0 ∨ source[top - 1]? = some '\n') ∧ program.isClearTo source top = true ∧
      top ≤ last.span.stop ∧ BlankLines blank ∧
      splice source source.length 0 patches = blank ++ splice source source.length top back := by
  have hmem : block ∈ program.blocks := Array.mem_of_getElem? hprint.found
  have htext := hprint.text
  rw [hlocal, if_pos rfl] at htext
  obtain ⟨after, kept, htrail, -, -, hkept⟩ := hprint.laidOut.print_dropped hprint.stands
    (hends block hmem hlocal) htext h.source_eq
  rw [Block.startsLines, hprint.laidOut.place, Option.any_some, Bool.or_eq_false_iff,
    beq_eq_false_iff_ne] at hstarts
  rw [decide_eq_true (Nat.pos_of_ne_zero hstarts.2), Bool.or_true, if_pos rfl] at hkept
  have hstart := hprint.laidOut.start
  have hstop := hprint.laidOut.stop
  have hlt := hprint.stands.stop_le.1
  have htrailText := hprint.laidOut.trail_text
  rw [htrail] at hstop htrailText
  rw [append_cons] at htrailText
  obtain ⟨hafterText, hkeptText⟩ := slice_split htrailText
  simp only [length_append, length_cons, length_nil] at hafterText hkeptText hstop
  refine ⟨comment.span.stop + (after.length + 1), splice source last.span.start 0 front ++ ['\n'],
    .inr ?_, isClearTo_iff.2 fun i hi => ?_, by omega, ⟨fun c hc => ?_, .inr ⟨_, rfl⟩⟩, ?_⟩
  · have hat := getElem?_of_text_eq (show (⟨comment.span.stop, _⟩ : Span).text source = _ from
      hafterText) (i := after.length) (by simp)
    rw [getElem?_concat_length] at hat
    exact hat
  · by_cases hbefore : i < last.span.start
    · exact isClearTo_iff.1 hclear i hbefore
    · exact .inr ⟨block, Array.mem_toList_iff.2 hmem, hlocal, last.span, hprint.laidOut.place,
        by omega, by omega⟩
  · rcases mem_append.1 hc with hc | hc
    · exact h.isBlank hends hpatches hclear c hc
    · rw [mem_singleton.1 hc]
      decide
  · have hordered := h.apart.ordered
    have hinside := h.apart.inside last (hpatches ▸ mem_append_right _ (.head _))
    rw [hpatches] at hordered ⊢
    obtain ⟨-, hback, hfront⟩ := pairwise_append.1 hordered
    have hbehind := (pairwise_cons.1 hback).1
    rw [← splice_append (Nat.zero_le _) (by omega) (fun patch hpatch =>
      hfront patch hpatch last (.head _))
        (forall_mem_cons.2 ⟨Nat.le_refl _, fun patch hpatch => ?_⟩),
      splice, slice_self, hkept, ← hkeptText,
      ← slice_append_splice
        (show comment.span.stop + (after.length + 1) ≤ _ by omega) hinside hbehind]
    · simp only [append_assoc, nil_append, Nat.zero_add]
    · have := hbehind patch hpatch
      omega

/-- Local blocks that own their lines leave blank lines at the top, and behind these each of them
takes its lines out. -/
theorem PrintedWithout.linesRemoved (hlines : ∀ block ∈ program.blocks, block.isLocalOnly = true →
      program.ownsLines source block = true) :
    ∃ top blank removed, program.LinesRemoved source (splice source source.length 0 patches) top
        blank removed ∧
      ((∀ block ∈ program.blocks, block.isLocalOnly = true → block.startsLines = true) →
        top = 0 ∧ blank = []) := by
  -- what is left of the patches once those before some offset are left out
  have hremoves {back : List Patch} (hsub : ∀ patch ∈ back, patch ∈ patches)
      (hback : ∀ patch ∈ back, ∀ block, program.block? patch.block = some block →
        block.isLocalOnly = true → block.startsLines = true) :
      ∀ patch ∈ back, program.RemovesLocal source patch := by
    intro patch hpatch
    obtain ⟨block, comment, lead, trail, hprint⟩ := h.prints patch (hsub patch hpatch)
    exact hprint.removesLocal h.source_eq fun hlocal =>
      ⟨hends block (Array.mem_of_getElem? hprint.found) hlocal,
        hback patch hpatch block hprint.found hlocal⟩
  rcases exists_last (fun patch : Patch => ∀ block, program.block? patch.block = some block →
    block.isLocalOnly = true → block.startsLines = true) patches with
    hstarts | ⟨front, last, back, hsplit, hlast, hback⟩
  · exact ⟨0, [], patches, ⟨.inl rfl, rfl, ⟨0, h.blocks, nofun⟩, fun _ _ => Nat.zero_le _, h.apart,
      hremoves (fun _ => id) hstarts, ⟨nofun, .inl rfl⟩, rfl⟩, fun _ => ⟨rfl, rfl⟩⟩
  · -- the last one that does not start its lines stands at the top
    have hsub : ∀ patch ∈ back, patch ∈ patches := fun patch hpatch =>
      hsplit ▸ mem_append_right _ (.tail _ hpatch)
    obtain ⟨block, comment, lead, trail, hprint⟩ :=
      h.prints last (hsplit ▸ mem_append_right _ (.head _))
    have hfound : block ∈ program.blocks := Array.mem_of_getElem? hprint.found
    obtain ⟨hlocal, hnot⟩ : block.isLocalOnly = true ∧ block.startsLines = false := by
      by_contra hcontra
      refine hlast fun other hother hlocal => ?_
      cases hprint.found.symm.trans hother
      exact Bool.of_not_eq_false fun hnot => hcontra ⟨hlocal, hnot⟩
    have hclear : program.isClearTo source last.span.start = true := by
      have howns := (Bool.and_eq_true_iff.1 (hlines block hfound hlocal)).2
      have hleading := (Bool.or_eq_false_iff.1 hnot).1
      rwa [hleading, Bool.false_or, hprint.laidOut.place, Option.any_some] at howns
    obtain ⟨top, blank, hline, htop, hle, hblank, heq⟩ :=
      h.exists_top hends hsplit hprint hlocal hnot hclear
    have hordered := h.apart.ordered
    rw [hsplit] at hordered
    obtain ⟨-, hbackOrdered, hfront⟩ := pairwise_append.1 hordered
    obtain ⟨hbehind, hbackOrdered⟩ := pairwise_cons.1 hbackOrdered
    have hrange : List.range program.blocks.size =
        (front ++ [last]).map Patch.block ++ back.map Patch.block := by
      rw [← h.blocks, hsplit, ← map_append, append_assoc]
      rfl
    refine ⟨top, blank, back, ⟨hline, htop, ⟨((front ++ [last]).map Patch.block).length, ?_,
      fun id hid => ?_⟩, fun patch hpatch => Nat.le_trans hle (hbehind patch hpatch),
      ⟨hbackOrdered, fun patch hpatch => h.apart.solid patch (hsub patch hpatch),
        fun patch hpatch => h.apart.inside patch (hsub patch hpatch)⟩,
      hremoves hsub hback, hblank, heq⟩, fun hstarts => ?_⟩
    · rw [hrange, drop_left]
    · rw [hrange, take_left] at hid
      obtain ⟨patch, hpatch, rfl⟩ := mem_map.1 hid
      rcases mem_append.1 hpatch with hpatch | hpatch
      · exact h.isLocal hclear (hsplit ▸ mem_append_left _ hpatch)
          (hfront patch hpatch last (.head _))
      · rw [mem_singleton.1 hpatch, hprint.found]
        exact hlocal
    · rw [hstarts block hfound hlocal] at hnot
      cases hnot

end

end Program

/-- If each block with nothing but `@local` owns its lines, removing these blocks takes their lines
out of the source and leaves all else as it was, up to blank lines at the top. If each of them
starts its lines too, no block leaves a blank line at the top. -/
theorem generate_removeLocals {source : List Char} {program : Program}
    (hread : Program.read source = .ok program)
    (hlines : ∀ block ∈ program.blocks, block.isLocalOnly = true →
      program.ownsLines source block = true) :
    ∃ program' text top blank patches,
      (Pass.removeLocals : Pass Program Nat).run.run { program } =
        (.ok program.localOnly.length, { program := program' }) ∧
      program'.generate (some source) = .ok (finishPrint (some source) (.ofChars text)) ∧
      program.LinesRemoved source text top blank patches ∧
      ((∀ block ∈ program.blocks, block.isLocalOnly = true → block.startsLines = true) →
        top = 0 ∧ blank = []) := by
  obtain ⟨printed, hprint, hprinted⟩ := Program.exists_printedWithout hread
  obtain ⟨top, blank, patches, hremoved, hexact⟩ := hprinted.linesRemoved
    (fun block hmem hlocal => (Bool.and_eq_true_iff.1 (hlines block hmem hlocal)).1) hlines
  refine ⟨_, _, top, blank, patches, Program.ReachedFrom.run_removeLocals hread .refl [], ?_,
    hremoved, hexact⟩
  rw [Program.generate, hprint]
  rfl

/-- A run of local blocks at the top, one before an indented line, and a block that stays. -/
def localLines : List Char :=
  "/** @local */\n  /** @local */\na;\n\t/**\n @local */ \r\n  b;\n/** c */ c;".toList

/-- The local blocks of the source own their lines, which are taken out of it. -/
theorem generate_localLines : ∃ program program' text top blank patches,
    Program.read localLines = .ok program ∧ program.localOnly = [0, 1, 2] ∧
    (Pass.removeLocals : Pass Program Nat).run.run { program } = (.ok 3, { program := program' }) ∧
    program'.generate (some localLines) = .ok (finishPrint (some localLines) (.ofChars text)) ∧
    program.LinesRemoved localLines text top blank patches := by
  have hok : ((Program.read localLines).toOption.any fun program =>
      program.localOnly == [0, 1, 2] && program.blocks.toList.all fun block =>
        !block.isLocalOnly || program.ownsLines localLines block) = true := by
    decide +kernel
  obtain ⟨program, hread, hboth⟩ := exists_eq_ok_of_any hok
  obtain ⟨hlocals, hall⟩ := Bool.and_eq_true_iff.1 hboth
  obtain ⟨program', text, top, blank, patches, hrun, hgenerate, hremoved, -⟩ :=
    generate_removeLocals hread fun block hmem hlocal => by
      simpa [hlocal] using all_eq_true.1 hall block (Array.mem_toList_iff.2 hmem)
  rw [beq_iff_eq.1 hlocals] at hrun
  exact ⟨program, program', text, top, blank, patches, hread, beq_iff_eq.1 hlocals, hrun, hgenerate,
    hremoved⟩

end DocTypes
