import DocTypes.Proofs.Doc.Enclosed
import DocTypes.Proofs.Lexing.Ends
import DocTypes.Proofs.Pass.Locals

/-!
# Blocks that are printed anew are comments

However the types in a block were inlined, its text is one documentation comment and nothing else
(`Program.print_reprinted`). Inlining takes types from one place of the source to another, so what
it shows stands in some comment of the source, and closes none (`Program.harmless_of_inlined`).
-/

namespace DocTypes

/-- The text is one documentation comment, from its start to its end. -/
def IsDocComment (text : List Char) : Prop :=
  ∃ lexed comment, lex text = .ok lexed ∧ lexed.tokens = [] ∧ lexed.comments = [comment] ∧
    comment.span = ⟨0, text.length⟩ ∧ comment.isDoc = true

/-- A text between the marks of a comment is one, if it does not close it. -/
theorem isDocComment_of_harmless {body : String} (h : Harmless body)
    (hfirst : ∃ c ∈ body.toList.head?, c ≠ '*') : IsDocComment ("/**" ++ body ++ "*/").toList := by
  have hsource : ("/**" ++ body ++ "*/").toList = spell [.comment .block ('*' :: body.toList)] := by
    simp [spell, Piece.chars, CommentKind.opening, CommentKind.closing]
  rw [hsource]
  have hlexes : Lexes [] true _ [.comment .block ('*' :: body.toList)] :=
    TokenChain.nil.lexes ⟨unclosed_iff.1 h, trivial⟩
  obtain ⟨lexed, hlex, hshows⟩ := lex_of_lexesSource (.plain (by
    rintro ⟨later, heq⟩
    cases heq) hlexes)
  obtain ⟨comment, hcomments, hfacts⟩ := List.map_eq_singleton_iff.1 hshows.comments
  refine ⟨lexed, comment, hlex, List.map_eq_nil_iff.1 hshows.tokens, hcomments, ?_, ?_⟩
  · have hspan : comment.span = _ := congrArg CommentFacts.span hfacts
    simpa [spell] using hspan
  · obtain ⟨c, hc, hne⟩ := hfirst
    obtain ⟨rest, hbody⟩ := List.head?_eq_some_iff.1 hc
    rw [Comment.isDoc, show comment.kind = .block from congrArg CommentFacts.kind hfacts,
      show comment.text = '*' :: c :: rest from hbody ▸ congrArg CommentFacts.text hfacts]
    simp [hne]

/-- No comment of a source is closed in it. -/
theorem Lexes.unclosed {braces : List Bool} {slashOpens : Bool} {text word : List Char}
    {pieces : List Piece} (h : Lexes braces slashOpens text pieces)
    (hmem : Piece.comment .block word ∈ pieces) : Unclosed word := by
  induction h with
  | done => cases hmem
  | step here _ ih =>
    rcases List.mem_cons.1 hmem with rfl | hmem
    · cases here with
      | block scan =>
        obtain ⟨-, text, htext, hopen⟩ := scanBlockComment_split scan
        rw [List.append_cancel_right htext]
        exact unclosed_iff.2 hopen
    · exact ih hmem

/-- No comment of a source is closed in it. -/
theorem LexesSource.unclosed {source word : List Char} {pieces : List Piece}
    (h : LexesSource source pieces) (hmem : Piece.comment .block word ∈ pieces) :
    Unclosed word := by
  cases h with
  | plain _ rest => exact rest.unclosed hmem
  | hashbang rest =>
    rcases List.mem_cons.1 hmem with heq | hmem
    · cases heq
    · exact rest.unclosed hmem

namespace Program

variable {first program program' : Program} {source : List Char}

/-- No block of a source closes a comment. -/
theorem enclosed_of_read (h : Program.read source = .ok program) :
    (∀ block ∈ program.blocks.toList, block.Enclosed) ∧ program.types.AllHarmless := by
  obtain ⟨lexed, hlexed, h⟩ := bind_eq_ok.1 h
  obtain ⟨⟨root, nextNode⟩, -, h⟩ := bind_eq_ok.1 h
  obtain ⟨⟨blocks, docs⟩, hblocks, h⟩ := bind_eq_ok.1 h
  cases h
  obtain ⟨pieces, hl, hs⟩ := lexesSource_of_lex (mapError_eq_ok.1 hlexed)
  have hlaid := DocReader.laidOutFrom_readAll hl hs (mapError_eq_ok.1 hblocks)
  have hcomments : ∀ comment ∈ lexed.comments.filter Comment.isDoc, Unclosed comment.text := by
    intro comment hmem
    obtain ⟨hmem, hdoc⟩ := List.mem_filter.1 hmem
    have hpiece := (hs.comment hmem).mem
    rw [beq_iff_eq.1 (Bool.and_eq_true_iff.1 hdoc).1] at hpiece
    exact hl.unclosed hpiece
  have hempty : Arena.AllHarmless {} :=
    fun _ _ h => absurd (Arena.lt_size_of_get h) (Nat.not_lt_zero _)
  obtain ⟨henclosed, htypes⟩ :=
    DocReader.enclosed_readFrom hcomments hempty (mapError_eq_ok.1 hblocks)
  refine ⟨fun block hblock => ?_, htypes⟩
  obtain ⟨old, hold, owner, rfl⟩ :=
    exists_mem_of_forall₂ (attach_spec root hlaid.length_eq).2 hblock
  obtain ⟨hopening, hclosing, hindent, hdescription, htags⟩ := henclosed old hold
  exact ⟨hopening, hclosing, hindent, hdescription, htags⟩

/-- A step of inlining brings no text into the types that was not there. -/
theorem Inlining.harmless (h : Inlining program program') (htypes : program.types.AllHarmless) :
    program'.types.AllHarmless := by
  cases h with
  | replaceType edit =>
    obtain ⟨types, hreplace, rfl⟩ := exists_replace_of_edit edit
    exact htypes.overwrite (Arena.overwrites_of_replace? hreplace).2
  | removeTag edit =>
    obtain ⟨tag, -, edit⟩ := bind_eq_ok.1 edit
    split at edit
    · cases edit
    · cases edit
      exact htypes

/-- Inlining succeeds on a program and makes another one of it. -/
def Inlined (program program' : Program) : Prop :=
  ∃ count calls calls', (Pass.inlineTypedefs : Pass Program Nat).run.run ⟨program, calls⟩ =
    (.ok count, ⟨program', calls'⟩)

/-- Types that were inlined show no text that closes a comment. -/
theorem harmless_of_inlined (h : Program.read source = .ok first)
    (hinlined : Relation.ReflTransGen Inlined first program) :
    first.ReachedFrom program ∧ program.types.AllHarmless := by
  induction hinlined with
  | refl => exact ⟨.refl, (enclosed_of_read h).2⟩
  | tail _ hrun ih =>
    obtain ⟨count, calls, calls', hrun⟩ := hrun
    obtain ⟨hreached, htypes⟩ := ih
    obtain ⟨result, log, calls'', -, hlog, hlogs⟩ :=
      exists_log_inlineTypedefs steady_orderly (hreached.orderly h) calls
    have hreached' := hreached.inlineTypedefs ⟨_, calls⟩
    rw [hrun] at hlog hreached'
    cases hlog
    refine ⟨hreached', ?_⟩
    clear hreached' hrun
    induction hlogs with
    | start => exact htypes
    | next _ last ih => exact last.1.harmless ih

/-- Whatever was inlined, each block of the source is printed as one documentation comment and
nothing else: no token follows it, and no other comment. -/
theorem print_reprinted (h : Program.read source = .ok first)
    (hinlined : Relation.ReflTransGen Inlined first program) :
    ∀ id ∈ program.sourceBlocks, ∃ block, program.block? id = some block ∧
      IsDocComment (block.print program.types).toList := by
  intro id hid
  obtain ⟨hreached, htypes⟩ := harmless_of_inlined h hinlined
  have hframe := hreached.frame h
  obtain ⟨pieces, lexed, hread⟩ := readFrom_of_read h
  obtain ⟨old, hold⟩ : ∃ old, first.block? id = some old := by
    rw [hframe.sourceBlocks, hread.sourceBlocks, List.mem_range] at hid
    exact ⟨_, Array.getElem?_eq_getElem hid⟩
  obtain ⟨block, hblock, hlayout⟩ := hframe.blocks id old hold
  obtain ⟨block', hblock', htags⟩ := (hreached.trims h).blocks id old hold
  cases hblock.symm.trans hblock'
  obtain ⟨hopening, hclosing, hindent, hdescription, htexts⟩ :=
    (enclosed_of_read h).1 old (Array.mem_toList_iff.2 (Array.mem_of_getElem? hold))
  have henclosed : block.Enclosed := ⟨hlayout.opening ▸ hopening, hlayout.closing ▸ hclosing,
    hlayout.indent ▸ hindent, hlayout.description ▸ hdescription,
    fun tag htag => htexts tag (htags.subset htag)⟩
  obtain ⟨body, hprint, hbody, hfirst⟩ := henclosed.exists_print htypes
  exact ⟨block, hblock, hprint ▸ isDocComment_of_harmless hbody hfirst⟩

/-- Asterisks and slashes in a type that is inlined, in a default and in descriptions. -/
def starredBlocks : List Char :=
  ("/** @local\n@typedef \x7b'*' | '/'\x7d A */\n" ++
    "/** Sums * / up.\n * @param \x7bA\x7d [a=/ x] / d */\nx;").toList

theorem print_reprinted_starred : ∃ first program, Program.read starredBlocks = .ok first ∧
    Inlined first program ∧ 1 ∈ program.sourceBlocks ∧
    ∃ block, program.block? 1 = some block ∧ block.print program.types =
        "/**\n * Sums * / up.\n * @param \x7b'*' | '/'\x7d [a=/ x] / d\n */" ∧
      IsDocComment (block.print program.types).toList := by
  obtain ⟨first, count, ⟨program, calls⟩, hread, hrun, hall⟩ := exists_inlined_of_any starredBlocks
    (fun _ _ program => program.sourceBlocks.contains 1 &&
      (program.block? 1).any fun block => block.print program.types ==
        "/**\n * Sums * / up.\n * @param \x7b'*' | '/'\x7d [a=/ x] / d\n */")
    (by decide +kernel)
  simp only [Bool.and_eq_true, List.contains_iff_mem, Option.any_eq_true, beq_iff_eq] at hall
  obtain ⟨hmem, block, hblock, htext⟩ := hall
  have hinlined : Inlined first program := ⟨count, [], calls, hrun⟩
  obtain ⟨block', hblock', hcomment⟩ := print_reprinted hread (.single hinlined) 1 hmem
  cases hblock.symm.trans hblock'
  exact ⟨first, program, hread, hinlined, hmem, block, hblock, htext, hcomment⟩

end Program

end DocTypes
