import DocTypes.Proofs.Pass.Locals

/-!
# What the blocks of a source own

Each block owns the layout around its comment and nothing else: the rest of its span is white space,
and no token or other comment reaches into it (`Block.Owns`). Before a comment this is so because
what stands there ends in a mark that is no white space; only a comment that ends with its line may
end in blanks, but then the line break stands behind these (`LexesSource.break_behind`).
-/

namespace DocTypes

open List

/-- A block owns a span around its comment: beyond the comment there is only white space in it, and
nothing of a token or of another comment. -/
structure Block.Owns (source : List Char) (lexed : Lexed) (comment : Comment) (block : Block)
    (span : Span) : Prop where
  place : block.span = some span
  inside : span.stop ≤ source.length
  around : span.start ≤ comment.span.start ∧ comment.span.stop ≤ span.stop
  blank : ∀ offset, span.Holds offset → ¬comment.span.Holds offset →
    ∃ c, source[offset]? = some c ∧ isBlank c = true
  tokens : ∀ token ∈ lexed.allTokens, token.span.Apart span
  comments : ∀ other ∈ lexed.comments, other.span ≠ comment.span → other.span.Apart span
  leading : block.leadingBreak = true → source[span.start]? = some '\n'

section
variable {source text word : List Char} {pieces : List Piece} {kind : CommentKind} {span : Span}

/-- What follows the rest of a line starts with a line break. -/
theorem eq_break_of_span {cs : List Char} {c : Char} (h : (cs.span (· != '\n')).2[0]? = some c) :
    c = '\n' := by
  rw [span_eq_takeWhile_dropWhile, ← head?_eq_getElem?] at h
  have := head?_dropWhile_not (· != '\n') cs
  rw [h] at this
  simpa using this

/-- A comment that no mark closes ends where its line does. -/
theorem Lexes.break_behind {braces : List Bool} {slashOpens : Bool}
    (h : Lexes braces slashOpens text pieces) (hkind : kind ≠ .block) : ∀ {offset : Nat},
    StandsAt offset pieces (.comment kind word) span →
      ∀ c, text[span.stop - offset]? = some c → c = '\n' := by
  induction h with
  | done => exact fun hstands => nomatch hstands
  | step here later ih =>
    intro offset hstands c hc
    rw [← here.chars_append] at hc
    cases hstands with
    | here =>
      rw [Nat.add_sub_cancel_left, getElem?_append_right (Nat.le_refl _), Nat.sub_self] at hc
      cases here with
      | line => exact eq_break_of_span hc
      | block => exact absurd rfl hkind
    | later below =>
      have hle := below.le_start
      have hstop := below.stop_eq
      refine ih below c ?_
      rwa [getElem?_append_right (by omega), Nat.sub_sub] at hc

/-- A comment that no mark closes ends where its line does. -/
theorem LexesSource.break_behind (h : LexesSource source pieces) (hkind : kind ≠ .block)
    (hstands : StandsAt 0 pieces (.comment kind word) span) :
    ∀ c, source[span.stop]? = some c → c = '\n' := by
  cases h with
  | plain _ rest => exact rest.break_behind hkind hstands
  | @hashbang cs _ rest =>
    intro c hc
    rw [← hashbang_append cs] at hc
    cases hstands with
    | here =>
      rw [Nat.zero_add, getElem?_append_right (Nat.le_refl _), Nat.sub_self] at hc
      exact eq_break_of_span hc
    | later below =>
      have hle := below.le_start
      have hstop := below.stop_eq
      refine rest.break_behind hkind below c ?_
      rwa [getElem?_append_right (by omega), ← Nat.zero_add (List.length _)] at hc

end

section
variable {source : List Char} {pieces : List Piece} {lexed : Lexed} {comment : Comment}
  {block : Block} {span : Span} {lead trail : List Char}
  (h : block.LaidOut source comment span lead trail)
include h

/-- There is a line break before the comment of a block only as the first thing that it owns. -/
theorem Block.LaidOut.eq_start {offset : Nat} (hbreak : source[offset]? = some '\n')
    (hle : span.start ≤ offset) (hlt : offset < comment.span.start) : offset = span.start := by
  by_contra hne
  obtain ⟨blanks, hlead, -, hblanks⟩ := h.lead_shape
  refine hblanks ?_
  have hmem : lead[offset - span.start]? = some '\n' := by
    rw [← h.lead_text, slice, getElem?_take_of_lt (by omega), getElem?_drop,
      Nat.add_sub_of_le hle, hbreak]
  rw [hlead, getElem?_append_right (by split <;> simp; omega)] at hmem
  exact mem_of_getElem? hmem

variable (hl : LexesSource source pieces) (hs : lexed.Shows source pieces)
  (hmem : comment ∈ lexed.comments)
include hl hs hmem

/-- No other comment reaches into what a block owns. -/
theorem Block.LaidOut.apart_comment {other : Comment} (hother : other ∈ lexed.comments)
    (hne : other.span ≠ comment.span) : other.span.Apart span := by
  have hstands := hs.comment_stands hl hother
  obtain ⟨hlt, -⟩ := hstands.stop_le
  rcases (hs.comment hother).apart (hs.comment hmem) with ⟨-, heq⟩ | hbefore | hbehind
  · exact absurd heq hne
  · by_cases hkind : other.kind = .block
    · have hlast : source[other.span.stop - 1]? = some '/' := by
        have htext := hstands.text_eq
        have hstop := hstands.stop_eq
        rw [hkind] at htext hstop
        have := getElem?_of_text_eq htext (i := other.text.length + 3)
          (by simp [CommentKind.opening, CommentKind.closing])
        rw [show other.span.start + (other.text.length + 3) = other.span.stop - 1 by
          simp [CommentKind.opening, CommentKind.closing] at hstop; omega] at this
        rw [this]
        simp [CommentKind.opening, CommentKind.closing]
      have := h.lt_start hlast (by decide) (by omega)
      exact .inl (by omega)
    · -- the line break behind the other comment is the first thing that the block owns
      obtain ⟨c, hc, hsolid, -⟩ := (hs.comment_stands hl hmem).first
      obtain ⟨d, hd⟩ : ∃ d, source[other.span.stop]? = some d := by
        refine ⟨_, List.getElem?_eq_getElem ?_⟩
        have := (List.getElem?_eq_some_iff.1 hc).1
        omega
      cases hl.break_behind hkind (hs.comment hother) d hd
      have hne : other.span.stop ≠ comment.span.start := by
        intro heq
        rw [heq, hc] at hd
        cases hd
        cases hsolid
      left
      by_contra hover
      have := h.eq_start hd (by omega) (by omega)
      omega
  · obtain ⟨c, hc, hsolid, -⟩ := hstands.first
    exact .inr (h.stop_le hc hsolid hbehind)

/-- A block owns the layout around its comment and nothing else. -/
theorem Block.LaidOut.owns : block.Owns source lexed comment span := by
  have hstart := h.start
  have hstop := h.stop
  refine ⟨h.place, h.inside, by omega, fun offset hin hout => ?_, fun token htoken => ?_,
    fun other => h.apart_comment hl hs hmem, fun hleading => ?_⟩
  · obtain ⟨c, hc⟩ : ∃ c, source[offset]? = some c :=
      ⟨_, List.getElem?_eq_getElem (Nat.lt_of_lt_of_le hin.2 h.inside)⟩
    refine ⟨c, hc, ?_⟩
    by_cases hbefore : offset < comment.span.start
    · exact h.lead_shape.blank c (h.lead_text ▸ mem_slice hc hin.1 hbefore)
    · have hbehind : comment.span.stop ≤ offset :=
        Nat.le_of_not_lt fun hlt => hout ⟨Nat.le_of_not_lt hbefore, hlt⟩
      exact h.trail_shape.blank c (h.trail_text ▸ mem_slice hc hbehind hin.2)
  · rcases mem_append.1 htoken with htoken | htoken
    · exact h.apart (hs.token_stands hl htoken) (hs.apart hl htoken hmem)
    · have hend : lexed.endToken.span.start = source.length :=
        congrArg (fun facts => facts.span.start) hs.endToken
      rw [mem_singleton.1 htoken]
      exact .inr (hend ▸ h.inside)
  · obtain ⟨blanks, hlead, -, -⟩ := h.lead_shape
    rw [hleading] at hlead
    have htext : (⟨span.start, comment.span.start⟩ : Span).text source = _ := h.lead_text
    have hfirst := getElem?_of_text_eq htext (i := 0) (by rw [hlead]; exact Nat.zero_lt_succ _)
    rw [hlead] at hfirst
    exact hfirst

end

/-- Blocks that own text one after the other own text around their comments. -/
theorem LaidOutFrom.forall₂ {source : List Char} {low : Nat} {comments : List Comment}
    {blocks : List Block} (h : LaidOutFrom source low comments blocks) :
    List.Forall₂ (fun comment block => ∃ span lead trail,
      Block.LaidOut source comment block span lead trail) comments blocks := by
  induction h with
  | nil => exact .nil
  | cons here _ _ ih => exact .cons ⟨_, _, _, here⟩ ih

namespace Program

/-- The blocks of a source own spans that follow one another, each around the comment that the block
was read from. Beyond the comment there is only white space in such a span, and nothing of a token
or of another comment; if the block has a line break before it, the span starts with it. -/
theorem read_owned {source : List Char} {program : Program}
    (h : Program.read source = .ok program) : ∃ lexed, lex source = .ok lexed ∧
      program.registeredBlocks.Pairwise Precedes ∧
      List.Forall₂ (fun comment block => ∃ span, Block.Owns source lexed comment block span)
        (lexed.comments.filter Comment.isDoc) program.registeredBlocks := by
  obtain ⟨pieces, lexed, hread⟩ := readFrom_of_read h
  refine ⟨lexed, hread.lexing, ReachedFrom.refl.pairwise_precedes h, ?_⟩
  rw [hread.registeredBlocks]
  have howned := hread.laidOut.forall₂
  refine forall₂_iff_get.2 ⟨howned.length_eq, fun i hi hi' => ?_⟩
  obtain ⟨span, lead, trail, hlaid⟩ := howned.get hi hi'
  exact ⟨span, hlaid.owns hread.lexes hread.shows (mem_filter.1 (get_mem _ _)).1⟩

/-- A line comment that ends in blanks, a block behind it, and another one that yields to it. -/
def adjacentBlocks : List Char :=
  "// note  \n  /** one */ \r\n\t/** two */ x;".toList

theorem read_owned_adjacent : ∃ program, Program.read adjacentBlocks = .ok program ∧
    program.registeredBlocks.map Block.span = [some ⟨9, 26⟩, some ⟨26, 37⟩] ∧
    ∃ lexed, lex adjacentBlocks = .ok lexed ∧ program.registeredBlocks.Pairwise Precedes ∧
      List.Forall₂ (fun comment block => ∃ span, Block.Owns adjacentBlocks lexed comment block span)
        (lexed.comments.filter Comment.isDoc) program.registeredBlocks := by
  have hok : ((Program.read adjacentBlocks).toOption.any fun program =>
      program.registeredBlocks.map Block.span == [some ⟨9, 26⟩, some ⟨26, 37⟩]) = true := by
    decide +kernel
  obtain ⟨program, hread, hspans⟩ := exists_eq_ok_of_any hok
  exact ⟨program, hread, beq_iff_eq.1 hspans, read_owned hread⟩

end Program

end DocTypes
