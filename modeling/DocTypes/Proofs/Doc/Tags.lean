import DocTypes.Doc.Layout
import DocTypes.Proofs.Except
import DocTypes.Proofs.TypeExpr.Insert

/-!
# The tags that are read

The tags of a source are numbered one after the other, each knows the number of its block, and the
keys of their types lead into the arena: `numbered_readFrom` for the blocks of a source, from what
holds of one tag (`tagsRead_readTag`).
-/

namespace DocTypes

/-- Tags that were read between two states of a reader. -/
structure TagsRead (state : DocState) (tags : List Tag) (state' : DocState) : Prop where
  types : Arena.Stored state.types (tags.filterMap Tag.typeKey) state'.types
  next : state.nextTag ≤ state'.nextTag
  ids : ∀ tag ∈ tags, state.nextTag ≤ tag.id ∧ tag.id < state'.nextTag
  distinct : tags.Pairwise fun first second => first.id ≠ second.id

/-- Blocks that were read from the number `id` on between two states of a reader. -/
structure BlocksRead (id : Nat) (state : DocState) (blocks : List Block) (state' : DocState) :
    Prop where
  tags : TagsRead state (blocks.flatMap Block.tags) state'
  owners : ∀ place block, blocks[place]? = some block →
    ∀ tag ∈ block.tags, tag.owner = some (id + place)
  whole : ∀ block ∈ blocks, block.removedTags = 0

variable {state state' state'' : DocState} {tags tags' : List Tag}

theorem TagsRead.nil (h : state.types.Layered) : TagsRead state [] state :=
  ⟨h.stored, Nat.le_refl _, nofun, .nil⟩

/-- Tags are read one after the other. -/
theorem TagsRead.append (h : TagsRead state tags state') (h' : TagsRead state' tags' state'') :
    TagsRead state (tags ++ tags') state'' where
  types := List.filterMap_append ▸ h.types.append h'.types
  next := Nat.le_trans h.next h'.next
  ids := by
    refine List.forall_mem_append.2 ⟨fun tag hmem => ?_, fun tag hmem => ?_⟩
    · have := h.ids tag hmem
      have := h'.next
      omega
    · have := h'.ids tag hmem
      have := h.next
      omega
  distinct := by
    refine List.pairwise_append.2 ⟨h.distinct, h'.distinct, fun first hfirst second hsecond => ?_⟩
    have := h.ids first hfirst
    have := h'.ids second hsecond
    omega

namespace DocReader

variable {title : String} {line : Nat} {text : List Char} {key : Option Nat}

/-- Reading a type: it is blank, or it is stored. -/
theorem readType_eq_ok (h : (readType title line text).run state = .ok (key, state')) :
    key = none ∧ state' = state ∨
      ∃ type : TypeExpr, TypeExpr.read text line = .ok type ∧
        key = some (Arena.insert type state.types).1 ∧
        state' = { state with types := (Arena.insert type state.types).2 } := by
  rw [readType] at h
  split at h
  case isTrue =>
    cases h
    exact .inl ⟨rfl, rfl⟩
  case isFalse =>
    rw [StateT.run_bind] at h
    obtain ⟨⟨current, _⟩, hget, h⟩ := bind_eq_ok.1 h
    cases hget
    dsimp only at h
    split at h
    case h_1 key' types hread =>
      cases h
      rw [Arena.readInto_eq] at hread
      obtain ⟨type, htype, hinsert⟩ := bind_eq_ok.1 hread
      refine .inr ⟨type, htype, ?_⟩
      rw [show Arena.insert type state.types = (key', types) from Except.ok.inj hinsert]
      exact ⟨rfl, rfl⟩
    case h_2 => cases h

/-- Taking a type: there is none, or it stands in braces and is read. -/
theorem takeType_eq_ok {type rest : List Char}
    (h : (takeType title line text).run state = .ok ((type, key, rest), state')) :
    (type = [] ∧ key = none ∧ rest = text ∧ state' = state) ∨
      ∃ behind, splitType? text = some (type, behind) ∧ rest = trimStartBy isIndent behind ∧
        (readType title line type).run state = .ok (key, state') := by
  rw [takeType] at h
  split at h
  case h_1 =>
    cases h
    exact .inl ⟨rfl, rfl, rfl, rfl⟩
  case h_2 hsplit =>
    rw [StateT.run_bind] at h
    obtain ⟨⟨key', middle⟩, hread, h⟩ := bind_eq_ok.1 h
    cases h
    exact .inr ⟨_, hsplit, rfl, hread⟩

/-- A tag's type is stored. -/
theorem stored_takeType {type rest : List Char} (hstate : state.types.Layered)
    (h : (takeType title line text).run state = .ok ((type, key, rest), state')) :
    Arena.Stored state.types key.toList state'.types ∧ state'.nextTag = state.nextTag := by
  rcases takeType_eq_ok h with ⟨-, rfl, -, rfl⟩ | ⟨_, -, -, hread⟩
  · exact ⟨hstate.stored, rfl⟩
  · rcases readType_eq_ok hread with ⟨rfl, rfl⟩ | ⟨type, -, rfl, rfl⟩
    · exact ⟨hstate.stored, rfl⟩
    · exact ⟨Arena.stored_insert type hstate, rfl⟩

/-- A tag is read with the next number, and knows its block. -/
theorem tagsRead_readTag {owner : Nat} {first : DocLine} {later : List DocLine} {tag : Tag}
    (hstate : state.types.Layered)
    (h : (readTag owner first later).run state = .ok (tag, state')) :
    TagsRead state [tag] state' ∧ tag.owner = some owner := by
  rw [readTag] at h
  simp only [StateT.run_bind] at h
  obtain ⟨⟨⟨type, key, rest⟩, middle⟩, htype, h⟩ := bind_eq_ok.1 h
  obtain ⟨⟨id, final⟩, hid, h⟩ := bind_eq_ok.1 h
  cases h
  cases hid
  obtain ⟨hstored, hnext⟩ := stored_takeType hstate htype
  refine ⟨⟨?_, ?_, List.forall_mem_singleton.2 ⟨?_, Nat.lt_succ_self _⟩,
    List.pairwise_singleton ..⟩, rfl⟩
  · cases key <;> exact hstored
  · exact Nat.le_trans (Nat.le_of_eq hnext.symm) (Nat.le_succ _)
  · exact Nat.le_of_eq hnext.symm

/-- The tags of a block are read one after the other. -/
theorem tagsRead_mapM {owner : Nat} : ∀ {lines : List (DocLine × List DocLine)} {state : DocState}
    {tags : List Tag}, state.types.Layered →
    (lines.mapM fun (first, later) => readTag owner first later).run state = .ok (tags, state') →
    TagsRead state tags state' ∧ ∀ tag ∈ tags, tag.owner = some owner := by
  intro lines
  induction lines with
  | nil =>
    intro state tags hstate h
    cases h
    exact ⟨.nil hstate, nofun⟩
  | cons line rest ih =>
    intro state tags hstate h
    simp only [List.mapM_cons, StateT.run_bind] at h
    obtain ⟨⟨tag, middle⟩, htag, h⟩ := bind_eq_ok.1 h
    obtain ⟨⟨others, final⟩, hothers, h⟩ := bind_eq_ok.1 h
    cases h
    obtain ⟨hfirst, howner⟩ := tagsRead_readTag hstate htag
    obtain ⟨hlater, howners⟩ := ih hfirst.types.layered hothers
    exact ⟨hfirst.append hlater, List.forall_mem_cons.2 ⟨howner, howners⟩⟩

/-- The tags of a block know its number. -/
theorem tagsRead_readBlock {id : Nat} {comment : Comment} {block : Block}
    (hstate : state.types.Layered)
    (h : (readBlock id comment).run state = .ok (block, state')) :
    TagsRead state block.tags state' ∧ (∀ tag ∈ block.tags, tag.owner = some id) ∧
      block.removedTags = 0 := by
  rw [readBlock, StateT.run_bind] at h
  obtain ⟨⟨tags, middle⟩, htags, h⟩ := bind_eq_ok.1 h
  cases h
  obtain ⟨hread, howners⟩ := tagsRead_mapM hstate htags
  exact ⟨hread, howners, rfl⟩

/-- A block keeps its tags when it yields to another. -/
theorem tags_yieldTo (previous : Option Block) (comment : Comment) (block : Block) :
    (yieldTo previous comment block).tags = block.tags ∧
      (yieldTo previous comment block).removedTags = block.removedTags := by
  unfold yieldTo
  split
  · split <;> exact ⟨rfl, rfl⟩
  · exact ⟨rfl, rfl⟩

/-- The blocks of comments are read with their tags in a row. -/
theorem blocksRead_readFrom {source : List Char} : ∀ {comments : List Comment} {id : Nat}
    {previous : Option Block} {state : DocState} {blocks : List Block}, state.types.Layered →
    (readFrom source id previous comments).run state = .ok (blocks, state') →
    BlocksRead id state blocks state' := by
  intro comments
  induction comments with
  | nil =>
    intro id previous state blocks hstate h
    cases h
    exact ⟨.nil hstate, nofun, nofun⟩
  | cons comment rest ih =>
    intro id previous state blocks hstate h
    rw [readFrom, StateT.run_bind] at h
    obtain ⟨⟨block, middle⟩, hblock, h⟩ := bind_eq_ok.1 h
    simp only [StateT.run_bind] at h
    obtain ⟨⟨later, final⟩, hlater, h⟩ := bind_eq_ok.1 h
    cases h
    obtain ⟨htags, howner, hwhole⟩ := tagsRead_readBlock hstate hblock
    have hrest := ih htags.types.layered hlater
    obtain ⟨hsame, hremoved⟩ := tags_yieldTo previous comment (place source comment block)
    refine ⟨?_, ?_, List.forall_mem_cons.2 ⟨hremoved.trans hwhole, hrest.whole⟩⟩
    · rw [List.flatMap_cons, hsame]
      exact htags.append hrest.tags
    · rintro (_ | place) other hother tag htag
      · cases hother
        rw [hsame] at htag
        exact howner tag htag
      · rw [hrest.owners place other hother tag htag]
        congr 1
        omega

end DocReader

end DocTypes
