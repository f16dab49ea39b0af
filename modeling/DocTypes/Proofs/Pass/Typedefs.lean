import DocTypes.Proofs.Pass.Inline

/-!
# What inlining local typedefs comes to

Main statements, for a program that was read and whose local typedefs have no quotes in their names:
inlining fails if two of them share a name, or if there is a cycle among them, and only then
(`inlineTypedefs_outcome`). If it succeeds, the local typedefs are gone, and the type of every other
tag is what it was with the names of local typedefs expanded, in whatever order these stand
(`inlineTypedefs_expands`).
-/

namespace DocTypes

open List

namespace Program

open Pass (typedefsFrom inlineTypedef)

section
variable {tag : Tag} {key : Nat} {seen : List (Pass.Typedef Value Nat)} {rest : List Value}
  {state : PassState Program}

/-- A tag without a name or a type is passed over. -/
theorem run_typedefsFrom_other (htag : isDeclaration tag = false) :
    (typedefsFrom seen (.tag tag :: rest) : Pass Program _).run.run state =
      (typedefsFrom seen rest).run.run state := by
  have hfacts : typedefFacts? (.tag tag) = .ok none := by
    rw [isDeclaration, Bool.and_eq_false_iff, bne_eq_false_iff_eq] at htag
    by_cases hname : tag.name = ""
    · simp [typedefFacts?, asTag, hname, bind, Except.bind, pure, Except.pure]
    · have hnone : tag.typeKey = none := by simpa using htag.resolve_left hname
      simp [typedefFacts?, asTag, hname, hnone, bind, Except.bind, pure, Except.pure]
  have hask : (Pass.ask fun program : Program => Editable.typedef? program (Value.tag tag)).run.run
      state = (.ok none, state) := by
    rw [Pass.run_ask]
    exact congrArg (fun facts => (Except.mapError PassFault.access facts, state)) hfacts
  rw [typedefsFrom, Pass.run_bind_ok hask]

section
variable (htag : isDeclaration tag = true) (hkey : tag.typeKey = some key)
include htag hkey

/-- A tag with a name and a type says what it declares. -/
theorem run_typedef? :
    (Pass.ask fun program : Program => Editable.typedef? program (Value.tag tag)).run.run state =
      (.ok (some { name := tag.name, key }), state) := by
  have hname : tag.name ≠ "" := by
    rw [isDeclaration, Bool.and_eq_true_iff, bne_iff_ne] at htag
    exact htag.1
  have hfacts : typedefFacts? (.tag tag) = .ok (some { name := tag.name, key }) := by
    simp [typedefFacts?, asTag, hname, hkey, bind, Except.bind, pure, Except.pure]
  rw [Pass.run_ask]
  exact congrArg (fun facts => (Except.mapError PassFault.access facts, state)) hfacts

/-- A tag with a new name is put before those that follow. -/
theorem run_typedefsFrom_new (hnew : ∀ earlier ∈ seen, earlier.name ≠ tag.name) :
    (typedefsFrom seen (.tag tag :: rest) : Pass Program _).run.run state =
      (do return typedefAt tag key :: (← typedefsFrom (typedefAt tag key :: seen) rest) :
        Pass Program _).run.run state := by
  have hfind : seen.find? (fun earlier => earlier.name == tag.name) = none :=
    find?_eq_none.2 fun earlier hearlier heq => hnew earlier hearlier (beq_iff_eq.1 heq)
  rw [typedefsFrom, Pass.run_bind_ok (run_typedef? htag hkey)]
  dsimp only
  rw [hfind]
  rfl

/-- A tag with a name that was met before is refused. -/
theorem run_typedefsFrom_met (hseen : ∀ earlier ∈ seen, ∃ first, earlier.tag = .tag first)
    (hmet : ∃ earlier ∈ seen, earlier.name = tag.name) :
    ∃ line, (typedefsFrom seen (.tag tag :: rest) : Pass Program _).run.run state =
      (.error (.ambiguous tag.name (some line) (some tag.line)), state) := by
  have hsome : (seen.find? fun earlier => earlier.name == tag.name).isSome := by
    obtain ⟨earlier, hearlier, hname⟩ := hmet
    exact find?_isSome.2 ⟨earlier, hearlier, beq_iff_eq.2 hname⟩
  obtain ⟨earlier, hearlier⟩ := Option.isSome_iff_exists.1 hsome
  obtain ⟨first, hfirst⟩ := hseen earlier (mem_of_find?_eq_some hearlier)
  refine ⟨first.line, ?_⟩
  rw [typedefsFrom, Pass.run_bind_ok (run_typedef? htag hkey)]
  dsimp only
  rw [hearlier]
  dsimp only
  rw [hfirst]
  rfl

end

end

/-- The typedefs among tags are found, if their names differ from each other and from those met
before. -/
theorem run_typedefsFrom (state : PassState Program) : ∀ (tags : List Tag)
    {seen : List (Pass.Typedef Value Nat)}, (∀ earlier ∈ seen, ∃ first, earlier.tag = .tag first) →
    let declared := tags.filter isDeclaration
    let apart := (declared.map Tag.name).Nodup ∧
      ∀ tag ∈ declared, ∀ earlier ∈ seen, earlier.name ≠ tag.name
    (apart → (typedefsFrom seen (tags.map .tag) : Pass Program _).run.run state =
      (.ok (typedefs declared), state)) ∧
    (¬ apart → ∃ label first second,
      (typedefsFrom seen (tags.map .tag) : Pass Program _).run.run state =
        (.error (.ambiguous label (some first) (some second)), state)) := by
  intro tags
  induction tags with
  | nil =>
    intro seen hseen
    exact ⟨fun _ => rfl, fun hnot => absurd ⟨.nil, nofun⟩ hnot⟩
  | cons tag rest ih =>
    intro seen hseen
    rw [map_cons]
    cases htag : isDeclaration tag with
    | false =>
      rw [filter_cons_of_neg (by simp [htag]), run_typedefsFrom_other htag]
      exact ih hseen
    | true =>
      have hsome : tag.typeKey.isSome = true := by
        rw [isDeclaration, Bool.and_eq_true_iff] at htag
        exact htag.2
      obtain ⟨key, hkey⟩ := Option.isSome_iff_exists.1 hsome
      rw [filter_cons_of_pos htag]
      by_cases hmet : ∃ earlier ∈ seen, earlier.name = tag.name
      · obtain ⟨earlier, hearlier, hname⟩ := hmet
        refine ⟨fun hapart => absurd hname (hapart.2 tag (.head _) earlier hearlier), fun _ => ?_⟩
        obtain ⟨line, hrun⟩ := run_typedefsFrom_met htag hkey hseen ⟨earlier, hearlier, hname⟩
        exact ⟨tag.name, line, tag.line, hrun⟩
      · have hnew : ∀ earlier ∈ seen, earlier.name ≠ tag.name := by simpa using hmet
        have hseen' : ∀ earlier ∈ typedefAt tag key :: seen, ∃ first, earlier.tag = .tag first :=
          forall_mem_cons.2 ⟨⟨tag, rfl⟩, hseen⟩
        obtain ⟨hok, hambiguous⟩ := ih hseen'
        have htypedefs : typedefs (tag :: rest.filter isDeclaration) =
            typedefAt tag key :: typedefs (rest.filter isDeclaration) :=
          filterMap_cons_some (by rw [hkey]; rfl)
        have hiff : (((tag :: rest.filter isDeclaration).map Tag.name).Nodup ∧
            ∀ other ∈ tag :: rest.filter isDeclaration, ∀ earlier ∈ seen,
            earlier.name ≠ other.name) ↔
            ((rest.filter isDeclaration).map Tag.name).Nodup ∧ ∀ other ∈ rest.filter isDeclaration,
              ∀ earlier ∈ typedefAt tag key :: seen, earlier.name ≠ other.name := by
          simp only [map_cons, nodup_cons, forall_mem_cons, mem_map, not_exists,
            not_and]
          constructor
          · rintro ⟨⟨hfirst, hnodup⟩, -, hrest⟩
            exact ⟨hnodup, fun other hother => ⟨fun heq => hfirst other hother heq.symm,
              hrest other hother⟩⟩
          · rintro ⟨hnodup, hall⟩
            exact ⟨⟨fun other hother heq => (hall other hother).1 heq.symm, hnodup⟩, hnew,
              fun other hother => (hall other hother).2⟩
        simp only [hiff]
        rw [run_typedefsFrom_new htag hkey hnew, htypedefs]
        refine ⟨fun hapart => ?_, fun hapart => ?_⟩
        · rw [Pass.run_bind_ok (hok hapart)]
          rfl
        · obtain ⟨label, first, second, hrun⟩ := hambiguous hapart
          exact ⟨label, first, second, by rw [Pass.run_bind, hrun]⟩

section
variable {program : Program} {source : List Char} {pieces : List Piece} {lexed : Lexed}
  {calls : List HookCall}

/-- The typedefs among the tags that a query finds are found, if no two share a name. -/
theorem run_findTypedefs {tags : List Tag}
    (hquery : program.query Pass.localTypedefs = .ok (tags.map .tag)) (calls : List HookCall) :
    (((tags.filter isDeclaration).map Tag.name).Nodup →
      (Pass.findTypedefs : Pass Program _).run.run ⟨program, calls⟩ =
        (.ok (typedefs (tags.filter isDeclaration)), ⟨program, calls⟩)) ∧
    (¬ ((tags.filter isDeclaration).map Tag.name).Nodup → ∃ label first second,
      (Pass.findTypedefs : Pass Program _).run.run ⟨program, calls⟩ =
        (.error (.ambiguous label (some first) (some second)), ⟨program, calls⟩)) := by
  have hrun : (Pass.query Pass.localTypedefs : Pass Program (List Value)).run.run ⟨program, calls⟩ =
      (.ok (tags.map .tag), ⟨program, calls⟩) := by
    rw [Pass.run_query]
    change ((program.query _).mapError _, _) = _
    rw [hquery]
    rfl
  have hnone :
      ∀ earlier ∈ ([] : List (Pass.Typedef Value Nat)), ∃ first, earlier.tag = .tag first :=
    nofun
  have hapart : (((tags.filter isDeclaration).map Tag.name).Nodup ∧
      ∀ tag ∈ tags.filter isDeclaration, ∀ earlier ∈ ([] : List (Pass.Typedef Value Nat)),
        earlier.name ≠ tag.name) ↔ ((tags.filter isDeclaration).map Tag.name).Nodup :=
    and_iff_left fun _ _ => nofun
  have hfound := run_typedefsFrom ⟨program, calls⟩ tags hnone
  simp only [hapart] at hfound
  rw [Pass.findTypedefs, Pass.run_bind_ok hrun]
  exact hfound

/-- Local typedefs can be inlined. -/
theorem declared_localTypedefs
    (hplain : ∀ tag ∈ program.localTypedefs, '"' ∉ tag.name.toList)
    (hnames : (program.localTypedefs.map Tag.name).Nodup) :
    program.Declared program.localTypedefs where
  hasTag := fun tag htag => hasTag_of_mem_typedefTags (mem_filter.1 htag).1
  typed := by
    intro tag htag
    have hdeclared := (mem_filter.1 htag).2
    rw [isDeclaration, Bool.and_eq_true_iff] at hdeclared
    exact hdeclared.2
  plain := hplain
  distinct := hnames

/-- Inlining goes through the local typedefs, if no two share a name. -/
theorem ReadFrom.run_inlineTypedefs (h : program.ReadFrom source pieces lexed)
    (hplain : ∀ tag ∈ program.localTypedefs, '"' ∉ tag.name.toList)
    (hnames : (program.localTypedefs.map Tag.name).Nodup) :
    ((program.definitions program.localTypedefs).IsCyclic → ∃ cause mark state,
      (Pass.inlineTypedefs : Pass Program Nat).run.run ⟨program, calls⟩ =
        (.error (.shape cause mark), state)) ∧
    (¬ (program.definitions program.localTypedefs).IsCyclic → ∃ count program',
      (Pass.inlineTypedefs : Pass Program Nat).run.run ⟨program, calls⟩ =
        (.ok count, ⟨program', calls⟩) ∧ program.Expanded program.localTypedefs program') := by
  obtain ⟨hcyclic, hacyclic⟩ :=
    run_inlineAll calls h.inlinable (declared_localTypedefs hplain hnames)
  have hfind : (Pass.findTypedefs : Pass Program _).run.run ⟨program, calls⟩ =
      (.ok (typedefs program.localTypedefs), ⟨program, calls⟩) :=
    (run_findTypedefs h.query_localTypedefs calls).1 hnames
  rw [Pass.inlineTypedefs, Pass.run_bind_ok hfind]
  refine ⟨fun hcycle => ?_, fun hnot => ?_⟩
  · obtain ⟨tag, -, state, hrun⟩ := hcyclic hcycle
    exact ⟨_, _, state, by rw [Pass.run_bind, hrun]⟩
  · obtain ⟨counts, program', hrun, hexpanded⟩ := hacyclic hnot
    exact ⟨counts.foldl (· + ·) 0, program', by rw [Pass.run_bind_ok hrun]; rfl, hexpanded⟩

/-- The name of a local typedef stands for something. -/
theorem ReadFrom.definitions_isSome (h : program.ReadFrom source pieces lexed) {label : String}
    (hlabel : label ∈ program.localTypedefs.map Tag.name)
    (hnames : (program.localTypedefs.map Tag.name).Nodup) :
    (program.definitions program.localTypedefs label).isSome := by
  obtain ⟨tag, htag, rfl⟩ := mem_map.1 hlabel
  obtain ⟨htypedef, hdeclared⟩ := mem_filter.1 htag
  rw [isDeclaration, Bool.and_eq_true_iff] at hdeclared
  obtain ⟨key, hkey⟩ := Option.isSome_iff_exists.1 hdeclared.2
  obtain ⟨type, htype⟩ := (hasTag_of_mem_typedefTags htypedef).exists_tree h.inlinable hkey
  rw [definitions, (find?_eq_some_iff hnames).2 ⟨htag, rfl⟩]
  change (tag.typeKey.bind fun key => program.types.tree? key).isSome = true
  rw [hkey, Option.bind_some, htype]
  rfl

/-- Inlining local typedefs is refused as ambiguous exactly if two of them share a name, and then
nothing changes. Otherwise it is refused exactly if there is a cycle among their types, and if there
is none it succeeds. -/
theorem inlineTypedefs_outcome (hread : Program.read source = .ok program)
    (hplain : ∀ tag ∈ program.localTypedefs, '"' ∉ tag.name.toList) (calls : List HookCall) :
    let run := (Pass.inlineTypedefs : Pass Program Nat).run.run ⟨program, calls⟩
    let unique := (program.localTypedefs.map Tag.name).Nodup
    let cyclic := (program.definitions program.localTypedefs).IsCyclic
    (¬ unique ↔ ∃ label first second, run.1 = .error (.ambiguous label first second)) ∧
      (¬ unique → run.2 = ⟨program, calls⟩) ∧
      (unique → (cyclic ↔ ∃ cause mark, run.1 = .error (.shape cause mark))) ∧
      (unique → ¬ cyclic → ∃ count, run.1 = .ok count) := by
  obtain ⟨pieces, lexed, h⟩ := readFrom_of_read hread
  intro run unique cyclic
  have hambiguous : ¬ unique → (∃ label first second,
      run.1 = .error (.ambiguous label first second)) ∧ run.2 = ⟨program, calls⟩ := by
    intro hnot
    obtain ⟨label, first, second, hfind⟩ := (run_findTypedefs h.query_localTypedefs calls).2 hnot
    have hrun : run = (.error (.ambiguous label (some first) (some second)), ⟨program, calls⟩) := by
      change (Pass.inlineTypedefs : Pass Program Nat).run.run ⟨program, calls⟩ = _
      rw [Pass.inlineTypedefs, Pass.run_bind, hfind]
    rw [hrun]
    exact ⟨⟨label, _, _, rfl⟩, rfl⟩
  have hcyclic : unique → cyclic → ∃ cause mark, run.1 = .error (.shape cause mark) := by
    intro hunique hcycle
    obtain ⟨cause, mark, state, hrun⟩ := (h.run_inlineTypedefs hplain hunique).1 hcycle
    exact ⟨cause, mark, congrArg Prod.fst hrun⟩
  have hacyclic : unique → ¬ cyclic → ∃ count, run.1 = .ok count := by
    intro hunique hnot
    obtain ⟨count, program', hrun, -⟩ := (h.run_inlineTypedefs hplain hunique).2 hnot
    exact ⟨count, congrArg Prod.fst hrun⟩
  refine ⟨⟨fun hnot => (hambiguous hnot).1, ?_⟩, fun hnot => (hambiguous hnot).2, fun hunique =>
    ⟨hcyclic hunique, ?_⟩, hacyclic⟩
  · rintro ⟨label, first, second, hrun⟩ hunique
    by_cases hcycle : cyclic
    · obtain ⟨cause, mark, hshape⟩ := hcyclic hunique hcycle
      rw [hrun] at hshape
      cases hshape
    · obtain ⟨count, hok⟩ := hacyclic hunique hcycle
      rw [hrun] at hok
      cases hok
  · rintro ⟨cause, mark, hrun⟩
    by_contra hcycle
    obtain ⟨count, hok⟩ := hacyclic hunique hcycle
    rw [hrun] at hok
    cases hok

/-- Two typedefs that refer to each other, one of them in a part of an object. -/
def mutualTypedefs : List Char :=
  ("/** @local\n * @typedef \x7b\x7bnext: B[]\x7d\x7d A */\n" ++
    "/**\n * @typedef \x7bfunction(A): C\x7d B\n * @local\n */\n" ++
    "/** @type \x7bA\x7d */\nvar x;\n").toList

/-- Inlining the two is refused. -/
theorem inlineTypedefs_mutual : ∃ program, Program.read mutualTypedefs = .ok program ∧
    (∀ tag ∈ program.localTypedefs, '"' ∉ tag.name.toList) ∧
    ∃ cause mark, ((Pass.inlineTypedefs : Pass Program Nat).run.run ⟨program, []⟩).1 =
      .error (.shape cause mark) := by
  have hok : ((Program.read mutualTypedefs).toOption.any fun program =>
      program.localTypedefs.map Tag.name == ["A", "B"] &&
      (program.definitions program.localTypedefs "A").any (fun type => type.names.contains "B") &&
      (program.definitions program.localTypedefs "B").any fun type => type.names.contains "A") =
      true := by
    decide +kernel
  obtain ⟨program, hread, hall⟩ := exists_eq_ok_of_any hok
  simp only [Bool.and_eq_true, beq_iff_eq, Option.any_eq_true, contains_iff_mem] at hall
  obtain ⟨⟨hnames, ⟨first, hfirst, hsecondIn⟩⟩, second, hsecond, hfirstIn⟩ := hall
  have hlabels : ∀ label ∈ ["A", "B"], '"' ∉ label.toList := by decide
  have hplain : ∀ tag ∈ program.localTypedefs, '"' ∉ tag.name.toList :=
    fun tag htag => hlabels tag.name (hnames ▸ mem_map_of_mem htag)
  have hcycle : (program.definitions program.localTypedefs).IsCyclic :=
    ⟨"A", .tail (.single ⟨first, hfirst, hsecondIn, by rw [hsecond]; rfl⟩)
      ⟨second, hsecond, hfirstIn, by rw [hfirst]; rfl⟩⟩
  have hunique : (program.localTypedefs.map Tag.name).Nodup := by
    rw [hnames]
    decide
  exact ⟨program, hread, hplain, ((inlineTypedefs_outcome hread hplain []).2.2.1 hunique).1 hcycle⟩

/-- If inlining local typedefs succeeds, these are the tags that are gone, and the type of every tag
that is left is what it was with the names of local typedefs expanded. No such name is left, and
the order of the local typedefs does not matter. -/
theorem inlineTypedefs_expands (hread : Program.read source = .ok program)
    (hplain : ∀ tag ∈ program.localTypedefs, '"' ∉ tag.name.toList) {count : Nat}
    {state : PassState Program}
    (hrun : (Pass.inlineTypedefs : Pass Program Nat).run.run ⟨program, calls⟩ =
      (.ok count, state)) :
    (∀ tag, state.program.HasTag tag ↔ program.HasTag tag ∧ tag ∉ program.localTypedefs) ∧
      ∀ tag, state.program.HasTag tag → ∀ key, tag.typeKey = some key →
        ∃ before after, program.types.tree? key = some before ∧
          state.program.types.tree? key = some after ∧
          (∀ label ∈ after.names, label ∉ program.localTypedefs.map Tag.name) ∧
          ∀ order, order.Perm program.localTypedefs → ∀ result,
            (program.definitions order).Expands before result ↔ result = after := by
  obtain ⟨pieces, lexed, h⟩ := readFrom_of_read hread
  have hnames : (program.localTypedefs.map Tag.name).Nodup := by
    by_contra hnot
    obtain ⟨label, first, second, hfind⟩ := (run_findTypedefs h.query_localTypedefs calls).2 hnot
    rw [Pass.inlineTypedefs, Pass.run_bind, hfind] at hrun
    cases hrun
  have hacyclic : ¬ (program.definitions program.localTypedefs).IsCyclic := by
    intro hcycle
    obtain ⟨cause, mark, state', hrun'⟩ := (h.run_inlineTypedefs hplain hnames).1 hcycle
    rw [hrun'] at hrun
    cases hrun
  obtain ⟨count', program', hrun', hexpanded⟩ := (h.run_inlineTypedefs hplain hnames).2 hacyclic
  rw [hrun'] at hrun
  cases hrun
  refine ⟨hexpanded.hasTag, fun tag htag key hkey => ?_⟩
  obtain ⟨before, after, hbefore, hafter, hexpands⟩ := hexpanded.types tag htag key hkey
  refine ⟨before, after, hbefore, hafter, fun label hlabel hmem => ?_,
    fun order horder result => ?_⟩
  · have hsome := h.definitions_isSome hmem hnames
    rw [hexpands.names label hlabel] at hsome
    cases hsome
  · rw [definitions_perm horder hnames]
    exact ⟨fun hresult => hresult.unique hexpands, fun heq => heq ▸ hexpands⟩

/-- A source is read and its typedefs are inlined, and a test holds of what comes out. -/
theorem exists_inlined_of_any (source : List Char) (p : Program → Nat → Program → Bool)
    (h : ((Program.read source).toOption.any fun program =>
      let run := (Pass.inlineTypedefs : Pass Program Nat).run.run ⟨program, []⟩
      run.1.toOption.any fun count => p program count run.2.program) = true) :
    ∃ program count state, Program.read source = .ok program ∧
      (Pass.inlineTypedefs : Pass Program Nat).run.run ⟨program, []⟩ = (.ok count, state) ∧
      p program count state.program = true := by
  obtain ⟨program, hread, hall⟩ := exists_eq_ok_of_any h
  dsimp only at hall
  generalize hrun : (Pass.inlineTypedefs : Pass Program Nat).run.run ⟨program, []⟩ = run at hall
  obtain ⟨result, state⟩ := run
  obtain ⟨count, rfl, htest⟩ := exists_eq_ok_of_any hall
  exact ⟨program, count, state, hread, hrun, htest⟩

/-- A typedef that refers to one that stands later, which refers to a third one twice. -/
def chainedTypedefs : List Char :=
  ("/** @local\n * @typedef \x7bB[]\x7d A */\n" ++
    "/** @local\n * @typedef \x7b[C, C=]\x7d B */\n/** @type \x7bA\x7d */\nvar x;\n" ++
    "/** @typedef \x7b?number\x7d C\n * @local */\n").toList

/-- The chain is inlined: the tag that is left has the type at its end, whose names are those of the
third typedef, twice. -/
theorem inlineTypedefs_chained : ∃ program count state,
    Program.read chainedTypedefs = .ok program ∧
    (∀ tag ∈ program.localTypedefs, '"' ∉ tag.name.toList) ∧
    (Pass.inlineTypedefs : Pass Program Nat).run.run ⟨program, []⟩ = (.ok count, state) ∧
    ∃ tag key before after, state.program.HasTag tag ∧ tag.typeKey = some key ∧
      program.types.tree? key = some before ∧ before.names = ["A"] ∧
      state.program.types.tree? key = some after ∧ after.names = ["number", "number"] ∧
      (program.definitions program.localTypedefs.reverse).Expands before after := by
  obtain ⟨program, count, state, hread, hrun, hall⟩ := exists_inlined_of_any chainedTypedefs
    (fun program _ program' => program.localTypedefs.map Tag.name == ["A", "B", "C"] &&
      (program'.registeredBlocks.flatMap Block.tags).any fun tag => tag.typeKey.any fun key =>
        (program.types.tree? key).any (fun type => type.names == ["A"]) &&
          (program'.types.tree? key).any fun type => type.names == ["number", "number"])
    (by decide +kernel)
  simp only [Bool.and_eq_true, beq_iff_eq, any_eq_true, Option.any_eq_true] at hall
  obtain ⟨hnames, tag, htag, key, hkey, ⟨before, hbefore, hbeforeNames⟩, after, hafter,
    hafterNames⟩ := hall
  have hlabels : ∀ label ∈ ["A", "B", "C"], '"' ∉ label.toList := by decide
  have hplain : ∀ tag ∈ program.localTypedefs, '"' ∉ tag.name.toList :=
    fun tag htag => hlabels tag.name (hnames ▸ mem_map_of_mem htag)
  have hleft : state.program.HasTag tag := by
    obtain ⟨block, hblock, htag⟩ := mem_flatMap.1 htag
    obtain ⟨id, hid, hblock⟩ := mem_filterMap.1 hblock
    exact ⟨id, hid, block, hblock, htag⟩
  obtain ⟨before', after', hbefore', hafter', -, hexpands⟩ :=
    (inlineTypedefs_expands hread hplain hrun).2 tag hleft key hkey
  rw [hbefore] at hbefore'
  rw [hafter] at hafter'
  cases hbefore'
  cases hafter'
  exact ⟨program, count, state, hread, hplain, hrun, tag, key, before, after, hleft, hkey, hbefore,
    hbeforeNames, hafter, hafterNames, (hexpands _ (reverse_perm _) after).2 rfl⟩

end

end Program

end DocTypes
