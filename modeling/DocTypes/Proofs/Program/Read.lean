import DocTypes.Program.Basic
import DocTypes.Proofs.Doc.Layout
import DocTypes.Proofs.Doc.Tags
import DocTypes.Proofs.Tree.Link

/-!
# Programs that were read

What holds of a program that was just read from a source: its tree is rooted between the tokens,
its blocks own the layout around the documentation comments, one block for each, and their tags are
numbered one after the other.
-/

namespace DocTypes

/-- Two blocks that are laid out alike. -/
structure Block.SameLayout (block block' : Block) : Prop where
  span : block'.span = block.span
  leadingBreak : block'.leadingBreak = block.leadingBreak
  trailingBreak : block'.trailingBreak = block.trailingBreak
  indent : block'.indent = block.indent
  opening : block'.opening = block.opening
  closing : block'.closing = block.closing
  oneLine : block'.oneLine = block.oneLine
  description : block'.description = block.description

/-- A program as it was read from a source that falls into pieces. -/
structure Program.ReadFrom (source : List Char) (pieces : List Piece) (lexed : Lexed)
    (program : Program) : Prop where
  lexing : lex source = .ok lexed
  lexes : LexesSource source pieces
  shows : lexed.Shows source pieces
  text : program.source = some source
  rooted : Rooted lexed.tokens source.length program.root
  laidOut : LaidOutFrom source 0 (lexed.comments.filter Comment.isDoc) program.blocks.toList
  sourceBlocks : program.sourceBlocks = List.range program.blocks.size
  registered : program.registered = List.range program.blocks.size
  blocks : BlocksRead 0 {} program.blocks.toList ⟨program.types, program.nextTag⟩

section
variable {source : List Char} {comment : Comment} {block block' : Block} {span : Span}
  {lead trail : List Char}

theorem Block.SameLayout.refl (block : Block) : block.SameLayout block :=
  ⟨rfl, rfl, rfl, rfl, rfl, rfl, rfl, rfl⟩

/-- What is laid out alike is laid out like a third. -/
theorem Block.SameLayout.trans {block'' : Block} (h : block.SameLayout block')
    (h' : block'.SameLayout block'') : block.SameLayout block'' :=
  ⟨h'.span.trans h.span, h'.leadingBreak.trans h.leadingBreak,
    h'.trailingBreak.trans h.trailingBreak, h'.indent.trans h.indent, h'.opening.trans h.opening,
    h'.closing.trans h.closing, h'.oneLine.trans h.oneLine, h'.description.trans h.description⟩

/-- A block that is laid out like another owns the same text. -/
theorem Block.LaidOut.of_sameLayout (h : block.LaidOut source comment span lead trail)
    (hs : block.SameLayout block') : block'.LaidOut source comment span lead trail where
  place := hs.span.trans h.place
  start := h.start
  stop := h.stop
  inside := h.inside
  lead_text := h.lead_text
  trail_text := h.trail_text
  lead_shape := hs.leadingBreak ▸ h.lead_shape
  trail_shape := hs.trailingBreak ▸ h.trail_shape
  indent := hs.indent ▸ h.indent

/-- Blocks that are laid out like others own the same text. -/
theorem LaidOutFrom.of_sameLayout {low : Nat} {comments : List Comment} {blocks : List Block}
    (h : LaidOutFrom source low comments blocks) : ∀ {blocks' : List Block},
    List.Forall₂ Block.SameLayout blocks blocks' → LaidOutFrom source low comments blocks' := by
  induction h with
  | nil =>
    intro blocks' hs
    cases hs
    exact .nil
  | cons here after later ih =>
    intro blocks' hs
    cases hs with
    | cons hblock hblocks => exact .cons (here.of_sameLayout hblock) after (ih hblocks)

/-- There are as many blocks as comments. -/
theorem LaidOutFrom.length_eq {low : Nat} {comments : List Comment} {blocks : List Block}
    (h : LaidOutFrom source low comments blocks) : blocks.length = comments.length := by
  induction h with
  | nil => rfl
  | cons _ _ _ ih => rw [List.length_cons, List.length_cons, ih]

end

/-- Each comment has a subject, or none. -/
theorem length_subjects (lexed : Lexed) (root : Node) :
    ∀ (taken : List Nat) (comments : List Comment),
      (subjects lexed root taken comments).length = comments.length
  | _, [] => rfl
  | taken, comment :: rest => by
    rw [subjects]
    split
    · split <;> rw [List.length_cons, List.length_cons, length_subjects]
    · rw [List.length_cons, List.length_cons, length_subjects]

/-- Attaching blocks to nodes relinks the tree and changes the owners of blocks. -/
theorem attach_spec {lexed : Lexed} (root : Node) {blocks : List Block}
    (hlength : blocks.length = (lexed.comments.filter Comment.isDoc).length) :
    (∃ f, Relinks f ∧ (attach lexed root blocks).1 = root.mapNodes f) ∧
      List.Forall₂ (fun block block' => ∃ owner, block' = { block with owner })
        blocks (attach lexed root blocks).2 := by
  refine ⟨⟨_, relinks_of_withDoc fun node => ⟨_, rfl⟩, rfl⟩, ?_⟩
  · rw [← length_subjects lexed root []] at hlength
    rw [attach]
    dsimp only
    generalize subjects lexed root [] (lexed.comments.filter Comment.isDoc) = owners at hlength ⊢
    induction blocks generalizing owners with
    | nil => exact .nil
    | cons block rest ih =>
      cases owners with
      | nil => cases hlength
      | cons owner owners => exact .cons ⟨_, rfl⟩ (ih owners (Nat.succ.inj hlength))

/-- Whom blocks belong to does not matter to their tags. -/
theorem BlocksRead.of_owners {id : Nat} {state state' : DocState} {blocks blocks' : List Block}
    (h : BlocksRead id state blocks state')
    (hs : List.Forall₂ (fun block block' => ∃ owner, block' = { block with owner })
      blocks blocks') :
    BlocksRead id state blocks' state' := by
  have htags : blocks'.flatMap Block.tags = blocks.flatMap Block.tags := by
    clear h
    induction hs with
    | nil => rfl
    | cons hblock _ ih =>
      obtain ⟨owner, rfl⟩ := hblock
      rw [List.flatMap_cons, List.flatMap_cons, ih]
  refine ⟨htags ▸ h.tags, fun place block' hblock' => ?_, fun block' hmem => ?_⟩
  · obtain ⟨hlt, rfl⟩ := List.getElem?_eq_some_iff.1 hblock'
    have hlt' : place < blocks.length := hs.length_eq ▸ hlt
    obtain ⟨owner, howner⟩ := hs.get hlt' hlt
    have howner : blocks'[place] = { blocks[place] with owner } := howner
    rw [howner]
    exact h.owners place blocks[place] (List.getElem?_eq_getElem hlt')
  · obtain ⟨block, hblock, owner, rfl⟩ := exists_mem_of_forall₂ hs hmem
    exact h.whole block hblock

namespace Program

/-- A program that is read is as the source says. -/
theorem readFrom_of_read {source : List Char} {program : Program}
    (h : Program.read source = .ok program) :
    ∃ pieces lexed, program.ReadFrom source pieces lexed := by
  obtain ⟨lexed, hlexed, h⟩ := bind_eq_ok.1 h
  obtain ⟨⟨root, nextNode⟩, hroot, h⟩ := bind_eq_ok.1 h
  obtain ⟨⟨blocks, docs⟩, hblocks, h⟩ := bind_eq_ok.1 h
  cases h
  obtain ⟨pieces, hl, hs⟩ := lexesSource_of_lex (mapError_eq_ok.1 hlexed)
  have hlaid := DocReader.laidOutFrom_readAll hl hs (mapError_eq_ok.1 hblocks)
  have hrooted := rooted_ofTokens (mapError_eq_ok.1 hlexed) (mapError_eq_ok.1 hroot)
  obtain ⟨⟨f, hf, hattach⟩, howners⟩ := attach_spec root hlaid.length_eq
  have hread := DocReader.blocksRead_readFrom Arena.layered_empty (mapError_eq_ok.1 hblocks)
  refine ⟨pieces, lexed, mapError_eq_ok.1 hlexed, hl, hs, rfl, ?_, ?_, rfl, rfl,
    hread.of_owners howners⟩
  · have hattached := rooted_mapNodes hf hrooted
    rw [← hattach] at hattached
    exact rooted_mapNodes relinks_adopt hattached
  · refine hlaid.of_sameLayout (howners.imp ?_)
    rintro block _ ⟨owner, rfl⟩
    exact ⟨rfl, rfl, rfl, rfl, rfl, rfl, rfl, rfl⟩

end Program

end DocTypes
