import DocTypes.Proofs.Program.Owned
import DocTypes.Transform

/-!
# Sources that stay as they are

A source without `@local` and `@export` is transformed into itself (`transform_eq_self`): no query
of a pass finds anything, so every block is printed as the text that it owns.
-/

namespace DocTypes

open List

/-- A text that is printed as it was is delivered as it was. -/
theorem finishPrint_self (source : List Char) :
    finishPrint (some source) (.ofChars source) = .ofChars source := by
  dsimp only [finishPrint]
  split
  case isTrue => rfl
  case isFalse hblank =>
    rw [Option.map_some, Option.getD_some, Bool.or_eq_true, not_or, bne_iff_ne, not_not] at hblank
    rw [Text.chars_ofChars, hblank.2, Nat.sub_self, drop_zero]

namespace Program

variable {source : List Char} {program program' : Program} {pieces : List Piece} {lexed : Lexed}

/-- The passes find nothing to do. -/
theorem run_all (hread : Program.read source = .ok program)
    (hplain : ∀ block ∈ program.blocks,
      block.hasTag "local" = false ∧ block.hasTag "export" = false) (hooks : Hooks) :
    (Pass.all hooks).run.run { program } = (.ok (), { program := program.appendBlocks [] }) := by
  have hthere : ∀ {id block}, program.block? id = some block →
      block.hasTag "local" = false ∧ block.hasTag "export" = false :=
    fun hblock => hplain _ (Array.mem_of_getElem? hblock)
  have htypedefs : program.localTypedefs = [] := by
    refine eq_nil_iff_forall_not_mem.2 fun tag htag => ?_
    obtain ⟨id, -, block, hblock, -, hlocal, -⟩ := mem_typedefTags.1 (mem_filter.1 htag).1
    rw [(hthere hblock).1] at hlocal
    cases hlocal
  have hlocals : program.localOnly = [] := by
    refine filter_eq_nil_iff.2 fun id _ hlocal => ?_
    obtain ⟨block, hblock, -⟩ := (Option.any_eq_true _ _).1 hlocal
    rw [← hasTagWith_localOnly, Bool.and_eq_true_iff, hasTagWith, hblock] at hlocal
    exact Bool.false_ne_true ((hthere hblock).1.symm.trans hlocal.1)
  have hexports : program.exports = [] := by
    refine filter_eq_nil_iff.2 fun id _ hexport => ?_
    obtain ⟨block, hblock, hexport⟩ := (Option.any_eq_true _ _).1 hexport
    exact Bool.false_ne_true ((hthere hblock).2.symm.trans hexport)
  have hfind := (run_findTypedefs (ReachedFrom.query_localTypedefs hread .refl) []).1
  rw [show program.typedefTags.filter isDeclaration = [] from htypedefs] at hfind
  have hinline : (Pass.inlineTypedefs : Pass Program Nat).run.run { program } =
      (.ok 0, { program }) := Pass.run_bind_ok (hfind .nil)
  have hremove := ReachedFrom.run_removeLocals hread .refl []
  rw [hlocals, withoutLocalOnly_of_nil hlocals] at hremove
  have hquery : (Pass.query Pass.exportBlocks : Pass Program (List Value)).run.run { program } =
      (.ok [], { program }) := by
    rw [Pass.run_query,
      show Editable.select program _ = _ from (orderly_of_read hread).query_exports, hexports]
    rfl
  have hsynthesize : (Pass.synthesize hooks : Pass Program (List Value)).run.run { program } =
      (.ok [], { program := program.appendBlocks [] }) := Pass.run_bind_ok hquery
  rw [Pass.all, Pass.run_bind_ok hinline, Pass.run_bind_ok hremove, Pass.run_bind_ok hsynthesize]
  rfl

/-- No block of a program that was read was changed. -/
theorem ReadFrom.isModified (h : program.ReadFrom source pieces lexed) {id : Nat} {block : Block}
    (hblock : program.block? id = some block) : block.isModified program.types = false := by
  have hwhole := h.blocks.whole block
    (mem_of_getElem? (Array.getElem?_toList.trans hblock))
  rw [Block.isModified, hwhole, any_eq_false.2 fun tag _ => ?_]
  · rfl
  · rw [Tag.isTouched]
    cases tag.typeKey with
    | none => exact Bool.false_ne_true
    | some key =>
      -- no slot was overwritten yet, so none below the key was
      rw [Option.map_some, Option.getD_some, Arena.touched, Arena.touched?,
        h.blocks.tags.types.kept.replaced]
      exact Bool.false_ne_true

/-- If no statements were added to a program that was read, it is printed as the patched source. -/
theorem ReadFrom.exists_print (h : program.ReadFrom source pieces lexed)
    (hframe : program.Frame program')
    (hvalues : program'.root.childValues = program.root.childValues) : ∃ patches,
      List.Forall₂ program'.IsPatch program'.sourceBlocks patches ∧
      Patches source.length patches ∧
      program'.print (some source) true =
        .ok (.ofChars (splice source source.length 0 patches)) := by
  obtain ⟨blocks, patches, texts, -, -, -, hpatches, htexts, hapart, hprint⟩ := hframe.printsAs h
  obtain ⟨ids, hadded, hids, -⟩ := hframe.childValues h
  have hnone : ids = [] :=
    map_eq_nil_iff.1 (append_right_eq_self.1 (hadded.symm.trans hvalues))
  rw [hids, hnone] at htexts
  cases htexts
  exact ⟨patches, hpatches, hapart, hprint⟩

/-- A program that is as it was read is printed as its source. -/
theorem print_appendBlocks_nil (h : program.ReadFrom source pieces lexed) :
    (program.appendBlocks []).print (some source) true = .ok (.ofChars source) := by
  obtain ⟨items, hbody⟩ := h.rooted.body
  have hframe : program.Frame (program.appendBlocks []) :=
    frame_appendBlocks (forall_mem_nil _)
  obtain ⟨patches, hpatches, hapart, hprint⟩ := h.exists_print hframe (by
    rw [childValues_of_body (hframe.kind.trans h.rooted.kind) (body_appendBlocks hbody),
      childValues_of_body h.rooted.kind hbody, append_nil])
  have hverbatim : ∀ patch ∈ patches, patch.text.toList = patch.span.text source := by
    intro patch hmem
    obtain ⟨id, hid, hpatch⟩ := exists_mem_of_forall₂ hpatches hmem
    obtain ⟨-, block, hblock, hspan, htext⟩ := hpatch
    have hregistered : (program.appendBlocks []).registered.contains id = true := by
      rw [contains_iff_mem]
      exact h.registered ▸ h.sourceBlocks ▸ hid
    have hsource : (program.appendBlocks []).source = some source := h.text
    rw [hregistered, Block.print_unmodified hsource hspan (h.isModified hblock)] at htext
    rw [← Except.ok.inj htext, String.toList_ofList]
  rw [hprint, splice_eq_slice hapart (Nat.zero_le _) (fun _ _ => Nat.zero_le _) hverbatim,
    slice_length]
  rfl

end Program

/-- A source without `@local` and `@export` is transformed into itself, and no hook is called. -/
theorem transform_eq_self {source : List Char} {program : Program}
    (hread : Program.read source = .ok program)
    (hplain : ∀ block ∈ program.blocks,
      block.hasTag "local" = false ∧ block.hasTag "export" = false) (hooks : Hooks) :
    transform source hooks = { result := .ok (String.ofList source) } := by
  obtain ⟨pieces, lexed, hfrom⟩ := Program.readFrom_of_read hread
  have hrun := Program.run_all hread hplain hooks
  have hprint := Program.print_appendBlocks_nil hfrom
  have hgenerate : (program.appendBlocks []).generate (some source) = .ok (.ofChars source) := by
    rw [Program.generate, hprint]
    exact congrArg Except.ok (finishPrint_self source)
  rw [transform, hread]
  dsimp only
  rw [hrun]
  dsimp only
  rw [hgenerate]
  simp only [Except.mapError, Except.bind, Text.string?_ofChars, Option.elim_some]
  rfl

/-- A source with documentation that is laid out in several ways. -/
def documented : List Char :=
  ("/** A point.\n * @typedef \x7b\x7bx: number\x7d\x7d P */\n\n" ++
    "  /** @type \x7bP\x7d */ let p;\n/** @param \x7bP\x7d [p=q] - where */\n" ++
    "function f(p) \x7b return `$\x7bp.x\x7d` /** ok */ \x7d\n").toList

/-- The source is read, has no `@local` and no `@export`, and stays as it is. -/
theorem transform_documented : ∃ program, Program.read documented = .ok program ∧
    (∀ block ∈ program.blocks, block.hasTag "local" = false ∧ block.hasTag "export" = false) ∧
    ∀ hooks, transform documented hooks = { result := .ok (String.ofList documented) } := by
  have hok : ((Program.read documented).toOption.any fun program => program.blocks.toList.all
      fun block => !block.hasTag "local" && !block.hasTag "export") = true := by
    decide +kernel
  obtain ⟨program, hread, hall⟩ := exists_eq_ok_of_any hok
  have hplain : ∀ block ∈ program.blocks,
      block.hasTag "local" = false ∧ block.hasTag "export" = false := by
    intro block hmem
    have hboth := all_eq_true.1 hall block (Array.mem_toList_iff.2 hmem)
    simpa using hboth
  exact ⟨program, hread, hplain, transform_eq_self hread hplain⟩

end DocTypes
