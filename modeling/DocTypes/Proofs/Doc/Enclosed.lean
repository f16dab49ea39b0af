import DocTypes.Doc.Printer
import DocTypes.Proofs.Doc.Tags
import DocTypes.Proofs.TypeExpr.Harmless

/-!
# Blocks close no comment but their own

What a tag says stands in the lines of its comment, part by part (`infix_readTag`), so no part of it
closes a comment. The printer puts the parts together again, but not so that an asterisk comes
before a slash (`Block.Enclosed.print`): what it puts between them keeps them apart, and a type that
it prints anew is harmless.
-/

namespace DocTypes

open List

/-! ## Parts of texts -/

/-- The parts between characters stand in the text. -/
theorem infix_of_mem_splitAll {c : Char} {text : List Char} :
    ∀ part ∈ splitAll c text, part <:+: text := by
  suffices ∃ first later, splitAll c text = first :: later ∧ first <+: text ∧
      ∀ part ∈ later, part <:+: text by
    obtain ⟨first, later, heq, hfirst, hlater⟩ := this
    exact heq ▸ forall_mem_cons.2 ⟨hfirst.isInfix, hlater⟩
  induction text with
  | nil => exact ⟨[], [], rfl, prefix_refl _, nofun⟩
  | cons d rest ih =>
    obtain ⟨first, later, heq, hfirst, hlater⟩ := ih
    have hlater' : ∀ part ∈ later, part <:+: d :: rest :=
      fun part hpart => (hlater part hpart).trans (suffix_cons d rest).isInfix
    rw [splitAll, heq]
    dsimp only
    split
    · exact ⟨[], first :: later, rfl, nil_prefix, forall_mem_cons.2
        ⟨hfirst.isInfix.trans (suffix_cons d rest).isInfix, hlater'⟩⟩
    · exact ⟨d :: first, later, rfl, prefix_cons_inj d |>.2 hfirst, hlater'⟩

theorem suffix_trimStartBy (p : Char → Bool) (text : List Char) : trimStartBy p text <:+ text :=
  dropWhile_suffix p

theorem prefix_trimEndBy (p : Char → Bool) (text : List Char) : trimEndBy p text <+: text := by
  rw [← reverse_suffix, trimEndBy, reverse_reverse]
  exact dropWhile_suffix p

theorem infix_trim (text : List Char) : trim text <:+: text :=
  (prefix_trimEndBy _ _).isInfix.trans (suffix_trimStartBy _ _).isInfix

namespace DocReader

theorem mem_of_mem_dropEnds {α : Type} {p : α → Bool} {items : List α} :
    ∀ item ∈ dropEnds p items, item ∈ items := by
  intro item hitem
  have := (dropWhile_suffix p).subset (mem_reverse.1 hitem)
  exact (dropWhile_suffix p).subset (mem_reverse.1 this)

/-- Brackets are closed in the text. -/
theorem closeAt_eq_some {opening closing : Char} {depth : Nat} {text inside rest : List Char}
    (h : closeAt opening closing depth text = some (inside, rest)) :
    text = inside ++ closing :: rest := by
  induction text generalizing depth inside with
  | nil => cases h
  | cons c text ih =>
    have hlater :
      ∀ {depth : Nat}, (closeAt opening closing depth text).map (fun s => (c :: s.1, s.2)) =
        some (inside, rest) → c :: text = inside ++ closing :: rest := by
      intro depth h
      obtain ⟨⟨inner, after⟩, hinner, heq⟩ := Option.map_eq_some_iff.1 h
      cases heq
      rw [ih hinner, cons_append]
    rw [closeAt] at h
    split at h
    case isTrue hc =>
      split at h
      · cases h
        rw [beq_iff_eq.1 hc, nil_append]
      · exact hlater h
    case isFalse => exact hlater h

/-- A type in braces and what follows it stand in the text. -/
theorem infix_splitType? {text type rest : List Char} (h : splitType? text = some (type, rest)) :
    type <:+: text ∧ rest <:+: text := by
  unfold splitType? at h
  split at h
  · rw [closeAt_eq_some h]
    exact ⟨⟨['{'], '}' :: rest, by simp⟩, ⟨'{' :: type ++ ['}'], [], by simp⟩⟩
  · cases h

/-- A name and what follows it make up the text. -/
theorem splitName_append (text : List Char) : (splitName text).1 ++ (splitName text).2 = text := by
  unfold splitName
  split
  · split
    case h_1 hclose => simp [closeAt_eq_some hclose]
    case h_2 => exact append_nil _
  · exact span_split _ _

/-- What a name says stands in it. -/
theorem infix_readName (text : List Char) : (readName text).name <:+: text ∧
    ∀ default ∈ (readName text).defaultText, default <:+: text := by
  have hinner : (text.drop 1).dropLast <:+: text :=
    ( dropLast_prefix _).isInfix.trans (drop_suffix 1 text).isInfix
  have hsplit := span_split (· != '=') (text.drop 1).dropLast
  rw [readName]
  split
  · dsimp only
    generalize (text.drop 1).dropLast.span (· != '=') = split at hsplit
    rw [← hsplit] at hinner
    split
    case h_1 name default =>
      refine ⟨(infix_trim _).trans ((prefix_append _ _).isInfix.trans hinner), ?_⟩
      rintro _ ⟨⟩
      exact (infix_trim _).trans (((suffix_cons '=' default).trans
        (suffix_append name _)).isInfix.trans hinner)
    case h_2 =>
      exact ⟨(infix_trim _).trans ((prefix_append _ _).isInfix.trans hinner), nofun⟩
  · exact ⟨infix_refl _, nofun⟩

/-- A name that is taken, and what follows it, stand in the text. -/
theorem infix_takeName (title : String) (text : List Char) :
    (takeName title text).1.name <:+: text ∧
      (∀ default ∈ (takeName title text).1.defaultText, default <:+: text) ∧
      (takeName title text).2 <:+: text := by
  rw [takeName]
  split
  case isFalse => exact ⟨ nil_infix, nofun, infix_refl _⟩
  case isTrue =>
  dsimp only
  have hstart : (if text.head? == some '\n' then trimStart text else text) <:+: text := by
    split
    · exact (suffix_trimStartBy _ _).isInfix
    · exact infix_refl _
  generalize (if text.head? == some '\n' then trimStart text else text) = start at hstart
  rw [← splitName_append start] at hstart
  have hname := (prefix_append _ _).isInfix.trans hstart
  have hrest := (suffix_trimStartBy isIndent _).isInfix.trans
    ((suffix_append _ _).isInfix.trans hstart)
  obtain ⟨hmeans, hdefault⟩ := infix_readName (splitName start).1
  refine ⟨hmeans.trans hname, fun default hmem => (hdefault default hmem).trans hname, ?_⟩
  split
  case h_1 rest heq =>
    rw [heq] at hrest
    exact (suffix_append ['-', ' '] rest).isInfix.trans hrest
  case h_2 => exact hrest

end DocReader

/-! ## Reading -/

/-- What a tag says, part by part. -/
def Tag.texts (tag : Tag) : List String :=
  tag.title :: tag.typeText :: tag.name :: (tag.defaultText.toList ++ tag.description)

/-- A block whose lines and tags close no comment. -/
structure Block.Enclosed (block : Block) : Prop where
  opening : block.opening = "/**"
  closing : block.closing = "*/"
  indent : ∀ c ∈ block.indent.toList, isIndent c = true
  description : ∀ line ∈ block.description, Unclosed line.toList
  tags : ∀ tag ∈ block.tags, ∀ text ∈ tag.texts, Unclosed text.toList

namespace DocReader

variable {state state' : DocState}

/-- The type of a tag stands in the text, and so does what follows it. -/
theorem infix_takeType {title : String} {line : Nat} {text type rest : List Char} {key : Option Nat}
    (h : (takeType title line text).run state = .ok ((type, key, rest), state')) :
    type <:+: text ∧ rest <:+: text ∧
      (Unclosed text → state.types.AllHarmless → state'.types.AllHarmless) := by
  rcases takeType_eq_ok h with ⟨rfl, -, rfl, rfl⟩ | ⟨behind, hsplit, rfl, hread⟩
  · exact ⟨ nil_infix, infix_refl _, fun _ => id⟩
  · obtain ⟨htype, hbehind⟩ := infix_splitType? hsplit
    refine ⟨htype, (suffix_trimStartBy _ _).isInfix.trans hbehind, fun htext hstate => ?_⟩
    rcases readType_eq_ok hread with ⟨-, rfl⟩ | ⟨tree, htree, -, rfl⟩
    · exact hstate
    · exact hstate.insert (htext.part htype) (TypeExpr.found_of_read htree).drawn

/-- What a tag says stands in its lines. -/
theorem infix_readTag {owner : Nat} {first : DocLine} {later : List DocLine} {tag : Tag}
    (h : (readTag owner first later).run state = .ok (tag, state')) :
    let text := joinLines (first.text :: later.map DocLine.text)
    (∀ part ∈ tag.texts, part.toList <:+: text) ∧
      (Unclosed text → state.types.AllHarmless → state'.types.AllHarmless) := by
  intro text
  rw [readTag] at h
  simp only [StateT.run_bind] at h
  obtain ⟨⟨⟨type, key, rest⟩, middle⟩, htype, h⟩ := bind_eq_ok.1 h
  obtain ⟨⟨id, final⟩, hid, h⟩ := bind_eq_ok.1 h
  cases h
  cases hid
  have hsplit := (drop_suffix 1 text).isInfix
  rw [← span_split (fun c => !isBlank c && c != '{') (text.drop 1)] at hsplit
  have hafter := (suffix_trimStartBy isIndent _).isInfix.trans
    ((suffix_append _ _).isInfix.trans hsplit)
  obtain ⟨hin, hrest, hstored⟩ := infix_takeType htype
  replace hrest := hrest.trans hafter
  obtain ⟨hname, hdefault, hbehind⟩ := infix_takeName
    (String.ofList ((text.drop 1).span fun c => !isBlank c && c != '{').1) rest
  refine ⟨?_, fun htext => hstored (htext.part hafter)⟩
  simp only [Tag.texts, forall_mem_cons, forall_mem_append, forall_mem_map,
    String.toList_ofList]
  refine ⟨(prefix_append _ _).isInfix.trans hsplit, hin.trans hafter, hname.trans hrest,
    fun default hmem => ?_, fun line hline => ?_⟩
  · obtain ⟨text, htext, rfl⟩ := Option.map_eq_some_iff.1 (Option.mem_toList.1 hmem)
    rw [String.toList_ofList]
    exact (hdefault text htext).trans hrest
  · exact (infix_of_mem_splitAll line (mem_of_mem_dropEnds line hline)).trans (hbehind.trans hrest)

theorem suffix_dropGutter (line : List Char) : dropGutter line <:+ line := by
  unfold dropGutter
  split
  · exact suffix_append ['*', ' '] _
  · exact suffix_cons '*' _
  · exact suffix_refl _

/-- The lines of a comment stand in it. -/
theorem infix_contentLines {comment : Comment} :
    ∀ line ∈ contentLines comment, line.text <:+: comment.text := by
  intro line hline
  obtain ⟨⟨raw, i⟩, hraw, rfl⟩ := mem_map.1 (mem_of_mem_dropEnds line hline)
  have hline := infix_of_mem_splitAll raw (fst_mem_of_mem_zipIdx hraw)
  have htrim : trimStart (trimEnd raw) <:+: comment.text :=
    (suffix_trimStartBy _ _).isInfix.trans ((prefix_trimEndBy _ _).isInfix.trans
      (hline.trans (drop_suffix 1 _).isInfix))
  dsimp only
  split
  · exact htrim
  · exact (suffix_dropGutter _).isInfix.trans htrim

/-- The lines of the tags are lines of the comment. -/
theorem mem_of_mem_sections {lines : List DocLine} : ∀ part ∈ sections lines,
    part.1 ∈ lines ∧ ∀ line ∈ part.2, line ∈ lines := by
  induction lines with
  | nil => exact nofun
  | cons first rest ih =>
    have hlater :
        ∀ part ∈ sections rest, part.1 ∈ first :: rest ∧ ∀ line ∈ part.2, line ∈ first :: rest :=
      fun part hpart => ⟨.tail _ (ih part hpart).1, fun line hline =>
        .tail _ ((ih part hpart).2 line hline)⟩
    rw [sections]
    split
    · refine forall_mem_cons.2 ⟨⟨.head _, fun line hline => .tail _ ?_⟩, hlater⟩
      exact ( takeWhile_prefix _).subset hline
    · exact hlater

/-- The tags of a comment close none. -/
theorem enclosed_mapM {owner : Nat} : ∀ {parts : List (DocLine × List DocLine)} {state : DocState}
    {tags : List Tag},
    (∀ part ∈ parts, Unclosed (joinLines (part.1.text :: part.2.map DocLine.text))) →
    state.types.AllHarmless →
    (parts.mapM fun (first, later) => readTag owner first later).run state = .ok (tags, state') →
    (∀ tag ∈ tags, ∀ text ∈ tag.texts, Unclosed text.toList) ∧ state'.types.AllHarmless := by
  intro parts
  induction parts with
  | nil =>
    intro state tags _ hstate h
    cases h
    exact ⟨nofun, hstate⟩
  | cons part rest ih =>
    intro state tags hparts hstate h
    simp only [mapM_cons, StateT.run_bind] at h
    obtain ⟨⟨tag, middle⟩, htag, h⟩ := bind_eq_ok.1 h
    obtain ⟨⟨others, final⟩, hothers, h⟩ := bind_eq_ok.1 h
    cases h
    obtain ⟨hpart, hrest⟩ := forall_mem_cons.1 hparts
    obtain ⟨htexts, hstored⟩ := infix_readTag htag
    obtain ⟨hlater, hfinal⟩ := ih hrest (hstored hpart hstate) hothers
    exact ⟨forall_mem_cons.2 ⟨fun text hmem => hpart.part (htexts text hmem), hlater⟩, hfinal⟩

/-- A block that is read from a comment closes none. -/
theorem enclosed_readBlock {id : Nat} {comment : Comment} {block : Block}
    (hcomment : Unclosed comment.text) (hstate : state.types.AllHarmless)
    (h : (readBlock id comment).run state = .ok (block, state')) :
    block.Enclosed ∧ state'.types.AllHarmless := by
  rw [readBlock, StateT.run_bind] at h
  obtain ⟨⟨tags, middle⟩, htags, h⟩ := bind_eq_ok.1 h
  cases h
  have hlines : ∀ line ∈ contentLines comment, Unclosed line.text :=
    fun line hline => hcomment.part (infix_contentLines line hline)
  have hparts : ∀ part ∈ sections (contentLines comment),
      Unclosed (joinLines (part.1.text :: part.2.map DocLine.text)) := by
    intro part hpart
    obtain ⟨hfirst, hlater⟩ := mem_of_mem_sections part hpart
    exact unclosed_joinLines (forall_mem_cons.2 ⟨hlines _ hfirst,
      forall_mem_map.2 fun line hline => hlines line (hlater line hline)⟩)
  obtain ⟨htexts, hstored⟩ := enclosed_mapM hparts hstate htags
  refine ⟨⟨rfl, rfl, by rintro _ ⟨⟩, forall_mem_map.2 fun text htext => ?_, htexts⟩, hstored⟩
  have hmem := (dropWhile_suffix _).subset (mem_reverse.1 htext)
  obtain ⟨line, hline, rfl⟩ := mem_map.1 (mem_reverse.1 hmem)
  rw [String.toList_ofList]
  exact hlines line (( takeWhile_prefix _).subset hline)

/-- The blocks of comments close none. -/
theorem enclosed_readFrom {source : List Char} : ∀ {comments : List Comment} {id : Nat}
    {previous : Option Block} {state : DocState} {blocks : List Block},
    (∀ comment ∈ comments, Unclosed comment.text) → state.types.AllHarmless →
    (readFrom source id previous comments).run state = .ok (blocks, state') →
    (∀ block ∈ blocks, block.Enclosed) ∧ state'.types.AllHarmless := by
  intro comments
  induction comments with
  | nil =>
    intro id previous state blocks _ hstate h
    cases h
    exact ⟨nofun, hstate⟩
  | cons comment rest ih =>
    intro id previous state blocks hcomments hstate h
    rw [readFrom, StateT.run_bind] at h
    obtain ⟨⟨block, middle⟩, hblock, h⟩ := bind_eq_ok.1 h
    simp only [StateT.run_bind] at h
    obtain ⟨⟨later, final⟩, hlater, h⟩ := bind_eq_ok.1 h
    cases h
    obtain ⟨hcomment, hrest⟩ := forall_mem_cons.1 hcomments
    obtain ⟨hhere, hmiddle⟩ := enclosed_readBlock hcomment hstate hblock
    obtain ⟨hblocks, hfinal⟩ := ih hrest hmiddle hlater
    have hplace : (place source comment block).Enclosed :=
      ⟨hhere.opening, hhere.closing, fun c hc =>
        all_eq_true.1 all_takeWhile c (by simpa [place] using hc),
        hhere.description, hhere.tags⟩
    refine ⟨forall_mem_cons.2 ⟨?_, hblocks⟩, hfinal⟩
    unfold yieldTo
    split
    · split
      · exact ⟨hplace.opening, hplace.closing, hplace.indent, hplace.description, hplace.tags⟩
      · exact hplace
    · exact hplace

end DocReader

/-! ## Printing -/

variable {types : Arena}

/-- A tag is printed without closing a comment. -/
theorem Tag.harmless_print {tag : Tag} (htexts : ∀ text ∈ tag.texts, Unclosed text.toList)
    (htypes : types.AllHarmless) : Harmless (tag.print types) := by
  simp only [Tag.texts, forall_mem_cons, forall_mem_append] at htexts
  obtain ⟨htitle, htypeText, hname, hdefault, hdescription⟩ := htexts
  have htype : Unclosed (tag.currentType types).toList := by
    rw [currentType]
    split
    · cases hprint : tag.typeKey.bind types.print? with
      | none => exact .nil
      | some text =>
        obtain ⟨key, -, hkey⟩ := Option.bind_eq_some_iff.1 hprint
        exact (htypes.print? hkey).unclosed
    · exact htypeText
  have hbracket := hname.harmless_append (by decide : Harmless ("[" ++ "/"))
  have hnameText : Unclosed tag.nameText.toList := by
    rw [nameText]
    split
    · split
      case h_1 default heq =>
        have hequals := (hdefault default (Option.mem_toList.2 heq)).harmless_append
          (by decide : Harmless ("=" ++ "/"))
        have := (hbracket.append hequals).append (by decide : Harmless "]")
        simpa only [String.append_assoc] using this.unclosed
      case h_2 => exact (hbracket.append (by decide)).unclosed
    · exact hname
  have hlines : Unclosed ("\n".intercalate tag.description).toList := by
    rw [String.toList_intercalate]
    exact unclosed_joinLines (forall_mem_map.2 hdescription)
  rw [print, printAs]
  refine (((htitle.harmless_append (by decide)).append ?_).append ?_).append ?_
  · split
    · exact (htype.harmless_append (by decide)).append (by decide)
    · exact (by decide : Harmless "")
  · split
    · exact hnameText.harmless_append (by decide)
    · exact (by decide : Harmless "")
  · split
    · exact (by decide : Harmless "")
    · exact hlines.harmless_append (by decide)

/-- A block is printed as a comment that is closed at its end only. -/
theorem Block.Enclosed.exists_print {block : Block} (h : block.Enclosed)
    (htypes : types.AllHarmless) :
    ∃ body : String, block.print types = "/**" ++ body ++ "*/" ∧ Harmless body ∧
      ∃ c ∈ body.toList.head?, c ≠ '*' := by
  have hlines : ∀ line ∈ block.lines types, Unclosed line.toList := by
    refine forall_mem_append.2 ⟨h.description, fun line hline => ?_⟩
    obtain ⟨tag, htag, hline⟩ := mem_flatMap.1 hline
    obtain ⟨part, hpart, rfl⟩ := mem_map.1 hline
    rw [String.toList_ofList]
    exact (Tag.harmless_print (h.tags tag htag) htypes).unclosed.part
      (infix_of_mem_splitAll part hpart)
  have hindent : Harmless block.indent := harmless_of_notMem fun hmem =>
    absurd (h.indent '/' hmem) (by decide)
  rw [print]
  generalize block.lines types = lines at hlines
  unfold printLines
  rw [h.opening, h.closing]
  split
  case h_1 => exact ⟨" ", rfl, by decide, ' ', rfl, by decide⟩
  case h_2 =>
    split
    case h_1 line _ _ =>
      refine ⟨" " ++ line ++ " ", by simp only [String.append_assoc], ?_, ' ', by simp, by decide⟩
      exact ((hlines line (.head _)).harmless_append (by decide)).append (by decide)
    case h_2 lines _ _ _ _ =>
      have hgutter : ∀ line ∈ lines,
          Harmless (block.indent ++ (if line == "" then " *" else " * " ++ line) ++ "\n") := by
        refine fun line hline => (hindent.append ?_).append (by decide)
        split
        · decide
        · exact (hlines line hline).harmless_append (by decide)
      have hjoin := harmless_join (forall_mem_map.2 hgutter)
      have hbody := (((by decide : Harmless "\n").append hjoin).append hindent).append
        (by decide : Harmless " ")
      exact ⟨_, by simp only [String.append_assoc], hbody, '\n', by simp, by decide⟩

end DocTypes
