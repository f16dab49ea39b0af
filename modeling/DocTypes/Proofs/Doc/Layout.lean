import DocTypes.Doc.Layout
import DocTypes.Proofs.Lexing.Tiling

/-!
# The layout that blocks own

The text that a block owns is what stands before its comment, the comment, and what stands after
it: `LaidOut` names the two parts of the layout and says what they are made of. `LaidOutFrom` says
it of the blocks of a source one after the other, and with it that no two own the same text.

No token reaches into what a block owns: a token does not end in white space, nor does it start
with a character that parts tokens.
-/

namespace DocTypes

open List

/-- A line break as layout knows it. -/
def IsLineBreak (text : List Char) : Prop :=
  text = ['\n'] ∨ text = ['\r', '\n']

/-- What a block owns behind its comment: blanks, and a line break with indentation if `breaks`. -/
def TrailShape (breaks : Bool) (trail : List Char) : Prop :=
  if breaks then
    ∃ blanks lineBreak indent, trail = blanks ++ lineBreak ++ indent ∧ blanks.all isIndent ∧
      IsLineBreak lineBreak ∧ indent.all isIndent
  else trail.all isIndent

/-- What a block owns before its comment: blanks, behind a line break if `breaks`. -/
def LeadShape (breaks : Bool) (lead : List Char) : Prop :=
  ∃ blanks, lead = (if breaks then ['\n'] else []) ++ blanks ∧ blanks.all isBlank ∧ '\n' ∉ blanks

/-- A block owns the span around its comment: `lead`, the comment and `trail`. -/
structure Block.LaidOut (source : List Char) (comment : Comment) (block : Block) (span : Span)
    (lead trail : List Char) : Prop where
  place : block.span = some span
  start : span.start + lead.length = comment.span.start
  stop : span.stop = comment.span.stop + trail.length
  inside : span.stop ≤ source.length
  lead_text : slice source span.start comment.span.start = lead
  trail_text : slice source comment.span.stop span.stop = trail
  lead_shape : LeadShape block.leadingBreak lead
  trail_shape : TrailShape block.trailingBreak trail
  indent : block.indent.toList.all isIndent

/-- Blocks that own text around their comments, one after the other from an offset on. -/
inductive LaidOutFrom (source : List Char) : Nat → List Comment → List Block → Prop where
  | nil {low : Nat} : LaidOutFrom source low [] []
  | cons {low : Nat} {comment : Comment} {block : Block} {comments : List Comment}
    {blocks : List Block} {span : Span} {lead trail : List Char}
    (here : block.LaidOut source comment span lead trail) (after : low ≤ span.start)
    (later : LaidOutFrom source span.stop comments blocks) :
    LaidOutFrom source low (comment :: comments) (block :: blocks)

section
variable {text trail lead source : List Char} {breaks : Bool} {comment : Comment} {block : Block}
  {span : Span}

/-- What a block owns behind its comment is made of blanks and line breaks. -/
theorem TrailShape.layout (h : TrailShape breaks trail) :
    ∀ c ∈ trail, c ∈ [' ', '\t', '\n', '\r'] := by
  have hindent : ∀ {part : List Char}, part.all isIndent = true →
      ∀ c ∈ part, c ∈ [' ', '\t', '\n', '\r'] := by
    intro part hpart c hc
    rcases Bool.or_eq_true_iff.1 (all_eq_true.1 hpart c hc) with h | h <;>
      rw [beq_iff_eq.1 h] <;> decide
  rw [TrailShape] at h
  split at h
  · obtain ⟨blanks, lineBreak, indent, rfl, hblanks, hbreak, hafter⟩ := h
    refine forall_mem_append.2 ⟨forall_mem_append.2 ⟨hindent hblanks, ?_⟩, hindent hafter⟩
    rcases hbreak with rfl | rfl <;> simp
  · exact hindent h

/-- The characters behind a comment that its block owns part tokens. -/
theorem TrailShape.parts (h : TrailShape breaks trail) : ∀ c ∈ trail, partsTokens c = true := by
  have hall : [' ', '\t', '\n', '\r'].all partsTokens = true := by decide
  exact fun c hc => all_eq_true.1 hall c (h.layout c hc)

/-- The characters behind a comment that its block owns are white space. -/
theorem TrailShape.blank (h : TrailShape breaks trail) : ∀ c ∈ trail, isBlank c = true := by
  have hall : [' ', '\t', '\n', '\r'].all isBlank = true := by decide
  exact fun c hc => all_eq_true.1 hall c (h.layout c hc)

/-- The characters before a comment that its block owns are white space. -/
theorem LeadShape.blank (h : LeadShape breaks lead) : ∀ c ∈ lead, isBlank c = true := by
  obtain ⟨blanks, rfl, hblanks, _⟩ := h
  intro c hc
  rcases mem_append.1 hc with hc | hc
  · split at hc
    · rw [mem_singleton.1 hc]
      decide
    · cases hc
  · exact all_eq_true.1 hblanks c hc

/-- What the layout behind a comment is made of. -/
theorem trailingLayout_split (text : List Char) : ∃ trail rest, text = trail ++ rest ∧
    trail.length = (DocReader.trailingLayout text).1 ∧
      TrailShape (DocReader.trailingLayout text).2 trail := by
  have hblanks : (text.takeWhile isIndent).all isIndent := all_takeWhile
  have hsplit := takeWhile_append_dropWhile (p := isIndent) (l := text)
  unfold DocReader.trailingLayout
  dsimp only
  split
  case h_1 rest hrest =>
    refine ⟨text.takeWhile isIndent ++ ['\r', '\n'] ++ rest.takeWhile isIndent,
      rest.dropWhile isIndent, ?_, ?_, _, _, _, rfl, hblanks, .inr rfl, all_takeWhile⟩
    · rw [append_assoc, takeWhile_append_dropWhile, append_assoc]
      exact (hrest ▸ hsplit).symm
    · simp only [hrest, length_append, length_cons, length_nil, drop_succ_cons,
        drop_zero]
  case h_2 rest hrest =>
    refine ⟨text.takeWhile isIndent ++ ['\n'] ++ rest.takeWhile isIndent,
      rest.dropWhile isIndent, ?_, ?_, _, _, _, rfl, hblanks, .inl rfl, all_takeWhile⟩
    · rw [append_assoc, takeWhile_append_dropWhile, append_assoc]
      exact (hrest ▸ hsplit).symm
    · simp only [hrest, length_append, length_cons, length_nil, drop_succ_cons,
        drop_zero]
  case h_3 => exact ⟨_, _, hsplit.symm, rfl, hblanks⟩

/-- Comments end inside the source. -/
theorem Comment.Stands.stop_le (h : comment.Stands source) :
    comment.span.start < comment.span.stop ∧ comment.span.stop ≤ source.length := by
  have hlength := congrArg List.length h.text_eq
  have hstop := h.stop_eq
  have hpos : 0 < (comment.kind.opening ++ comment.text ++ comment.kind.closing).length := by
    cases comment.kind <;> simp [CommentKind.opening]
  simp only [Span.text, slice, length_take, length_drop] at hlength
  omega

namespace DocReader

/-- What a block owns before its comment: nothing, unless only blanks stand before the comment on
its line; then these and the line break before them. -/
theorem place_lead (h : comment.Stands source) (block : Block) : ∃ front lead,
    source.take comment.span.start = front ++ lead ∧
      (place source comment block).span = some ⟨front.length, comment.span.stop +
        (trailingLayout (source.drop comment.span.stop)).1⟩ ∧
      LeadShape (place source comment block).leadingBreak lead ∧
      (place source comment block).indent.toList.all isIndent := by
  obtain ⟨hlt, hle⟩ := h.stop_le
  obtain ⟨front, line, hbefore, hlength, hline, hfront⟩ :=
    lastLine_split (source.take comment.span.start)
  have hstart : front.length + line.length = comment.span.start := by
    have := congrArg List.length hbefore
    rw [length_take, length_append] at this
    omega
  have hlead : (source.take comment.span.start).drop
      ((source.take comment.span.start).length - lastLineLength (source.take comment.span.start)) =
        line := by
    rw [← hlength, hbefore, length_append, Nat.add_sub_cancel, drop_left]
  have hlineStart : comment.span.start - lastLineLength (source.take comment.span.start) =
      front.length := by
    omega
  have hindent : (String.ofList (line.takeWhile isIndent)).toList.all isIndent := by
    rw [String.toList_ofList]
    exact all_takeWhile
  simp only [place, hlead, hlineStart]
  -- the line before the comment is blank or not, and has a line break before it or not
  cases hopens : isBlankText line with
  | false =>
    refine ⟨front ++ line, [], by rw [append_nil, hbefore], ?_, ⟨[], rfl, rfl, by simp⟩,
      hindent⟩
    rw [length_append, hstart]
    rfl
  | true =>
    rcases hfront with rfl | ⟨before, rfl⟩
    · exact ⟨[], line, hbefore, rfl, ⟨line, rfl, hopens, hline⟩, hindent⟩
    · refine ⟨before, '\n' :: line, ?_, ?_, ⟨line, ?_, hopens, hline⟩, hindent⟩
      · rw [hbefore, append_assoc, singleton_append]
      · rw [length_append, length_singleton]
        rfl
      · rw [length_append, length_singleton]
        simp

/-- A block that is put in its place owns the layout around its comment. -/
theorem laidOut_place (h : comment.Stands source) (block : Block) :
    ∃ span lead trail, (place source comment block).LaidOut source comment span lead trail := by
  obtain ⟨hlt, hle⟩ := h.stop_le
  obtain ⟨front, lead, hbefore, hspan, hlead, hindent⟩ := place_lead h block
  obtain ⟨trail, rest, htrail, htrailing, hshape⟩ :=
    trailingLayout_split (source.drop comment.span.stop)
  have hstart : front.length + lead.length = comment.span.start := by
    have := congrArg List.length hbefore
    rw [length_take, length_append] at this
    omega
  refine ⟨_, lead, trail, hspan, hstart, by rw [htrailing], ?_, ?_, ?_, hlead, hshape, hindent⟩
  · have := congrArg List.length htrail
    rw [length_drop, length_append] at this
    show comment.span.stop + _ ≤ _
    rw [← htrailing]
    omega
  · have hsource : source = front ++ lead ++ source.drop comment.span.start := by
      rw [← hbefore, take_append_drop]
    rw [hsource, ← hstart]
    simp [slice]
  · rw [slice, Nat.add_sub_cancel_left, ← htrailing]
    exact (congrArg (List.take trail.length) htrail).trans take_left

/-- Up to where the block before owns the text. -/
def ownedTo (previous : Option Block) : Nat :=
  ((previous.bind Block.span).map Span.stop).getD 0

/-- A block that yields to the one before it owns nothing that the other owns. -/
theorem laidOut_yieldTo {previous : Option Block} (h : block.LaidOut source comment span lead trail)
    (hstart : ownedTo previous ≤ comment.span.start) :
    ∃ span lead, (yieldTo previous comment block).LaidOut source comment span lead trail ∧
      ownedTo previous ≤ span.start := by
  unfold yieldTo
  rw [h.place]
  rw [ownedTo] at hstart ⊢
  cases hprevious : previous.bind Block.span with
  | none => exact ⟨span, lead, h, Nat.zero_le _⟩
  | some earlier =>
    rw [hprevious] at hstart
    dsimp only [Option.map_some, Option.getD_some] at hstart ⊢
    by_cases hyields : span.start < earlier.stop
    · rw [if_pos hyields]
      refine ⟨⟨comment.span.start, span.stop⟩, [], ?_, hstart⟩
      exact
        { place := by rw [Nat.max_eq_right hstart]
          start := rfl
          stop := h.stop
          inside := h.inside
          lead_text := slice_self
          trail_text := h.trail_text
          lead_shape := ⟨[], rfl, rfl, by simp⟩
          trail_shape := h.trail_shape
          indent := h.indent }
    · rw [if_neg hyields]
      exact ⟨span, lead, h, by omega⟩

end DocReader

/-- A comment starts with a character that parts no tokens and is no white space. -/
theorem Comment.Stands.first (h : comment.Stands source) :
    ∃ c, source[comment.span.start]? = some c ∧ partsTokens c = false ∧ isBlank c = false := by
  have htext := h.text_eq
  cases hkind : comment.kind <;> rw [hkind] at htext <;>
    exact ⟨_, getElem?_of_text_eq htext (i := 0) (Nat.zero_lt_succ _), by decide⟩

/-- What a block owns behind its comment ends before anything that parts no tokens. -/
theorem Block.LaidOut.stop_le (h : block.LaidOut source comment span lead trail) {offset : Nat}
    {c : Char} (hc : source[offset]? = some c) (hsolid : partsTokens c = false)
    (hafter : comment.span.stop ≤ offset) : span.stop ≤ offset := by
  by_contra hlt
  have hmem := mem_slice hc hafter (Nat.lt_of_not_le hlt)
  rw [h.trail_text] at hmem
  rw [h.trail_shape.parts c hmem] at hsolid
  cases hsolid

/-- What a block owns before its comment starts behind anything that is no white space. -/
theorem Block.LaidOut.lt_start (h : block.LaidOut source comment span lead trail) {offset : Nat}
    {c : Char} (hc : source[offset]? = some c) (hsolid : isBlank c = false)
    (hbefore : offset < comment.span.start) : offset < span.start := by
  by_contra hle
  have hmem := mem_slice hc (Nat.le_of_not_lt hle) hbefore
  rw [h.lead_text] at hmem
  rw [h.lead_shape.blank c hmem] at hsolid
  cases hsolid

namespace DocReader

/-- The blocks that are read own the layout around their comments, one after the other. -/
theorem laidOutFrom_readFrom : ∀ {comments : List Comment} {id : Nat} {previous : Option Block}
    {state state' : DocState} {blocks : List Block},
    (readFrom source id previous comments).run state = .ok (blocks, state') →
    (∀ comment ∈ comments, comment.Stands source) →
    comments.Pairwise (fun a b => a.span.stop ≤ b.span.start) →
    (∀ comment ∈ comments, ownedTo previous ≤ comment.span.start) →
    LaidOutFrom source (ownedTo previous) comments blocks := by
  intro comments
  induction comments with
  | nil =>
    intro id previous state state' blocks h _ _ _
    cases h
    exact .nil
  | cons comment rest ih =>
    intro id previous state state' blocks h hstands hordered hprevious
    rw [readFrom, StateT.run_bind] at h
    obtain ⟨⟨block, middle⟩, hblock, h⟩ := bind_eq_ok.1 h
    simp only [StateT.run_bind] at h
    obtain ⟨⟨later, final⟩, hlater, h⟩ := bind_eq_ok.1 h
    cases h
    obtain ⟨hhere, hrest⟩ := forall_mem_cons.1 hstands
    obtain ⟨hfirst, hordered⟩ := pairwise_cons.1 hordered
    obtain ⟨_, _, trail, hplace⟩ := laidOut_place hhere block
    obtain ⟨span, lead, hlaid, hlow⟩ := laidOut_yieldTo hplace (hprevious comment (.head _))
    have howned : ownedTo (some (yieldTo previous comment (place source comment block))) =
        span.stop := by
      rw [ownedTo, Option.bind_some, hlaid.place]
      rfl
    refine .cons hlaid hlow ?_
    rw [← howned]
    refine ih hlater hrest hordered fun next hnext => ?_
    rw [howned]
    obtain ⟨c, hc, hsolid, -⟩ := (hrest next hnext).first
    exact hlaid.stop_le hc hsolid (hfirst next hnext)

/-- The blocks of a source own the layout around its documentation comments. -/
theorem laidOutFrom_readAll {lexed : Lexed} {pieces : List Piece} {state state' : DocState}
    {blocks : List Block} (hl : LexesSource source pieces) (hs : lexed.Shows source pieces)
    (h : (readAll source lexed.comments).run state = .ok (blocks, state')) :
    LaidOutFrom source 0 (lexed.comments.filter Comment.isDoc) blocks := by
  refine laidOutFrom_readFrom h (fun comment hmem => ?_) (hs.comments_ordered.filter _)
    fun _ _ => Nat.zero_le _
  exact hs.comment_stands hl (mem_filter.1 hmem).1

end DocReader

/-- No token reaches into what a block owns. -/
theorem Block.LaidOut.apart (h : block.LaidOut source comment span lead trail) {token : Token}
    (htoken : token.Stands source)
    (hapart : token.span.stop ≤ comment.span.start ∨ comment.span.stop ≤ token.span.start) :
    token.span.stop ≤ span.start ∨ span.stop ≤ token.span.start := by
  have hlt := htoken.lt
  rcases hapart with hbefore | hbehind
  · obtain ⟨last, hlast, hsolid⟩ := htoken.last
    have := h.lt_start hlast hsolid (by omega)
    omega
  · obtain ⟨first, hfirst, hsolid⟩ := htoken.first
    exact .inr (h.stop_le hfirst hsolid hbehind)

end

end DocTypes
