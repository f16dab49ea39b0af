import DocTypes.Proofs.Pass.Inline
import DocTypes.Proofs.Pass.Log

/-!
# Programs stay sound while typedefs are inlined

While typedefs are inlined, slots of types are given what other slots hold, which could close a
cycle. It does not: a slot is only overwritten if it does not stand below the slot that it is given
the content of, and what stands there is found out once, before the first slot is overwritten. The
slots below are not overwritten meanwhile, so it stays true (`Steady.replaceType`). Hence the
program stays as it should be at every point of the pass (`exists_log_inlineTypedefs`), whether it
succeeds or not. If it can be walked through, it is `Sound`: its types are trees, and whoever
follows them or walks through the program comes to an end.
-/

namespace DocTypes

open List Pass

namespace Arena

variable {arena arena' : Arena} {key source : Nat}

/-- If every slot has a tree, no slot stands below itself. -/
theorem Grounded.acyclic (h : arena.Grounded) (key : Nat) :
    ¬ Relation.TransGen arena.Part key key := by
  intro hcycle
  obtain ⟨_, ⟨node, hnode, -⟩, -⟩ := Relation.TransGen.head'_iff.1 hcycle
  obtain ⟨type, htree⟩ := Option.isSome_iff_exists.1 (h key (lt_size_of_get hnode))
  -- a cycle through a slot is one through a part of it, which has a smaller tree
  refine byTree (fun key node parts hnode _ hparts ih hcycle => ?_) htree hcycle
  obtain ⟨part, ⟨node', hnode', hpart⟩, hback⟩ := Relation.TransGen.head'_iff.1 hcycle
  rw [hnode] at hnode'
  cases hnode'
  obtain ⟨type, htype, htree⟩ := exists_tree_part hparts hpart
  exact ih part hpart type htype htree (.tail' hback ⟨node, hnode, hpart⟩)

/-- A slot that was given what another one holds, and both of them are slots. -/
theorem overwrites_of_replace? (h : arena.replace? key source = some arena') :
    source < arena.slots.size ∧ arena.Overwrites [key] source arena' := by
  obtain ⟨node, hnode, hrest⟩ := Option.bind_eq_some_iff.1 h
  obtain ⟨_, hguard, -⟩ := Option.bind_eq_some_iff.1 hrest
  have hkey : key < arena.slots.size := by
    by_contra hkey
    rw [guard, if_neg hkey] at hguard
    cases hguard
  have hsource := lt_size_of_get hnode
  obtain ⟨arena'', hreplace, hover⟩ := exists_replace? hkey hsource
  rw [h] at hreplace
  cases hreplace
  exact ⟨hsource, hover⟩

/-- Nothing new stands below the slot whose content was given away, if the other slot did not. -/
theorem Overwrites.below_of_below (h : arena.Overwrites [key] source arena')
    (hapart : ¬ arena.Below source key) {other : Nat} (hbelow : arena'.Below source other) :
    arena.Below source other := by
  induction hbelow with
  | refl => exact .refl
  | @tail middle other _ hpart ih =>
    obtain ⟨node, hnode, hmem⟩ := hpart
    have hmiddle : middle ∉ [key] := fun heq => hapart (mem_singleton.1 heq ▸ ih)
    rw [h.elsewhere middle hmiddle] at hnode
    exact ih.tail ⟨node, hnode, hmem⟩

end Arena

namespace Program

variable {program program' start : Program} {key source : Nat}

/-! ## What holds at every point -/

/-- The types of a program are trees with the slots that they should have, and whoever follows them
or walks through the program comes to an end: nothing is cut off by a bound. -/
structure Sound (program : Program) : Prop where
  key : ∀ key node, program.types.get? key = some node → node.key = key
  parts : ∀ key node, program.types.get? key = some node →
    ∀ part ∈ node.shape.children, part < program.types.slots.size
  acyclic : ∀ key, ¬ Relation.TransGen program.types.Part key key
  prints : ∀ key < program.types.slots.size, ∃ text, program.types.print? key = some text
  reaches : ∀ key < program.types.slots.size, ∃ keys, program.types.reachable? key = some keys ∧
    ∀ other, other ∈ keys ↔ program.types.Below key other
  walks : ∃ met, program.view.walk (.node program.root) = .ok met ∧
    ∀ value path, (value, path) ∈ met ↔ program.view.Leads (.node program.root) path value
  queries : ∀ text levels, program.levels ≤ levels →
    (program.view.deeper levels).query (.node program.root) text = program.query text

/-- A program that can be walked through and whose types are trees is sound. -/
theorem Viewable.sound {ids : Nat → Prop} (h : program.Viewable ids)
    (hgrounded : program.types.Grounded) : program.Sound where
  key := h.types.key
  parts := h.types.parts
  acyclic := hgrounded.acyclic
  prints key hkey := by
    obtain ⟨type, htree⟩ := Option.isSome_iff_exists.1 (hgrounded key hkey)
    exact ⟨type.print, by rw [Arena.print?, htree]; rfl⟩
  reaches key hkey := Arena.exists_reachable? h.types hkey
  walks := by
    have hroot : program.IsAmong ids (.node program.root) := .inl rfl
    obtain ⟨met, hmet, hmem, -⟩ := walk_spec h hroot
    refine ⟨met, hmet, fun value path => (hmem value path).trans (and_iff_right_of_imp ?_)⟩
    exact shallow_root h hgrounded path value
  queries text levels hle :=
    View.query_deeper (fun _ => shallow_null) (shallow_root h hgrounded) hle text

/-! ## What an edit keeps -/

/-- What holds of programs whose types are trees, and is kept where types are replaced or tags are
taken out. -/
structure Steady (good : Program → Prop) : Prop where
  closed : ∀ {program}, good program → program.types.Closed
  grounded : ∀ {program}, good program → program.types.Grounded
  retype : ∀ {program types}, good program → types.Closed → types.Grounded →
    types.slots.size = program.types.slots.size → good { program with types }
  removeTag : ∀ {program program' value}, good program →
    Editable.removeTag value program = .ok program' → good program'

/-- The keys are all that stand below a slot, or more. -/
def Covers (program : Program) (own : List Nat) (source : Nat) : Prop :=
  source < program.types.slots.size → ∀ other, program.types.Below source other → other ∈ own

/-- Replacing a type changes the arena only. -/
theorem exists_replace_of_edit (h : Editable.replaceType key source program = .ok program') :
    ∃ types, program.types.replace? key source = some types ∧
      program' = { program with types } := by
  obtain ⟨types, htypes, hprogram⟩ := bind_eq_ok.1 h
  cases hprogram
  generalize program.types.replace? key source = answer at htypes
  cases answer with
  | none => cases htypes
  | some => exact ⟨types, congrArg some (Except.ok.inj htypes), rfl⟩

section
variable {good : Program → Prop} (hgood : Steady good) {own : List Nat}
include hgood

/-- A slot is given what another one holds that it does not stand below. -/
theorem Steady.replaceType (h : good program) (hown : program.Covers own source)
    (hkey : key ∉ own) (hedit : Editable.replaceType key source program = .ok program') :
    good program' ∧ program'.Covers own source := by
  obtain ⟨types, hreplace, rfl⟩ := exists_replace_of_edit hedit
  obtain ⟨hsource, hover⟩ := Arena.overwrites_of_replace? hreplace
  have hapart : ¬ program.types.Below source key := fun hbelow => hkey (hown hsource key hbelow)
  obtain ⟨inner, hinner⟩ := Option.isSome_iff_exists.1 (hgood.grounded h source hsource)
  have hbelow : ∀ other, program.types.Below source other → other ∉ [key] :=
    fun other hother heq => hapart (mem_singleton.1 heq ▸ hother)
  have hgrounded := hover.grounded hinner hbelow (hgood.grounded h)
  exact ⟨hgood.retype h (hover.closed (hgood.closed h)) hgrounded hover.size,
    fun _ other hother => hown hsource other (hover.below_of_below hapart hother)⟩

/-- What is reachable from a slot is all that stands below it. -/
theorem Steady.covers (h : good program) (hown : Editable.reachable program key = .ok own) :
    program.Covers own key := by
  intro hkey other hbelow
  obtain ⟨keys, hkeys, hmem⟩ := Arena.exists_reachable? (hgood.closed h) hkey
  change inRange (program.types.reachable? key) = .ok own at hown
  rw [hkeys] at hown
  cases hown
  exact (hmem other).2 hbelow

end

/-- A step of inlining: a slot is given what another one holds, or a tag is taken out. -/
inductive Inlining (program : Program) : Program → Prop
  | replaceType {key source : Nat} {program' : Program}
    (edit : Editable.replaceType key source program = .ok program') : Inlining program program'
  | removeTag {tag : Value} {program' : Program}
    (edit : Editable.removeTag tag program = .ok program') : Inlining program program'

/-! ## What a pass keeps -/

section
variable {good : Program → Prop}

/-- The log leads from a program by steps of inlining, each to a good program. -/
def Logs (start : Program) (good : Program → Prop) : Logged Program → Prop :=
  Logged.Follows (fun before after => Inlining before after ∧ good after) start

/-- Whoever starts from a good program is at a good program. -/
theorem Logs.all_good {log : Logged Program} (h : start.Logs good log) (hstart : good start) :
    ∀ state ∈ log.states, good state := by
  induction h with
  | start => exact forall_mem_singleton.2 hstart
  | next _ last ih => exact forall_mem_cons.2 ⟨last.2, ih⟩

/-- The second log goes on as the first one does. -/
def StillLogs (start : Program) (good : Program → Prop) (log log' : Logged Program) : Prop :=
  start.Logs good log → start.Logs good log'

theorem chained_stillLogs : Pass.Chained (start.StillLogs good) where
  refl _ := id
  trans h h' := h' ∘ h

/-- The pass goes on by steps of inlining, whether it fails or not. -/
abbrev KeepsLogs {β : Type} (start : Program) (good : Program → Prop)
    (pass : Pass (Logged Program) β) : Prop :=
  Pass.Stays (start.StillLogs good) (start.Logs good) pass

open Pass (Typedef)

variable (hgood : Steady good) (hstart : good start)
include hgood hstart

/-- Replacing references, if the keys cover what stands below the typedef. -/
theorem keeps_replaceAll (typedef : Typedef Value Nat) (own : List Nat) (references : List Value) :
    Pass.Keeps (start.StillLogs good)
      (fun log => start.Logs good log ∧ log.program.Covers own typedef.key)
      (Pass.replaceAll typedef own references) fun _ => start.Logs good := by
  induction references with
  | nil => exact keeps_pure chained_stillLogs.refl fun _ => And.left
  | cons reference rest ih =>
    refine (keeps_ask chained_stillLogs.refl).bind chained_stillLogs.trans fun key => ?_
    have hreplace : ∀ hkey : key ∉ own, Pass.Keeps (start.StillLogs good)
        (fun log => start.Logs good log ∧ log.program.Covers own typedef.key)
        (Pass.change (Editable.replaceType key typedef.key) : Pass (Logged Program) Unit)
        fun _ log => start.Logs good log ∧ log.program.Covers own typedef.key := by
      intro hkey
      refine keeps_changed chained_stillLogs.refl fun {log log'} hlog hedit => ?_
      obtain ⟨program, hprogram, rfl⟩ := Logged.exists_of_record hedit
      have hhere := hlog.1.all_good hstart log.program (.head _)
      obtain ⟨hthere, hcovers⟩ := hgood.replaceType hhere hlog.2 hkey hprogram
      have hnext : start.Logs good (log.record program) :=
        hlog.1.next ⟨.replaceType hprogram, hthere⟩
      exact ⟨fun _ => hnext, hnext, hcovers⟩
    dsimp only
    split
    case isTrue =>
      refine (keeps_ask chained_stillLogs.refl).bind chained_stillLogs.trans fun line => ?_
      -- the pass ends here, so that nothing is asked of what would follow
      have hthrow : Pass.Keeps (start.StillLogs good)
          (fun log => start.Logs good log ∧ log.program.Covers own typedef.key)
          (throw (.shape (.recursiveTypedef typedef.name) (lineStart? line)) :
            Pass (Logged Program) PUnit) fun _ _ => False := keeps_throw chained_stillLogs.refl
      exact hthrow.bind chained_stillLogs.trans fun _ _ => False.elim
    case isFalse hkey =>
      exact (hreplace (by simpa using hkey)).bind chained_stillLogs.trans fun _ => ih

/-- Inlining one typedef. -/
theorem keepsLogs_inlineTypedef (typedef : Typedef Value Nat) :
    start.KeepsLogs good (inlineTypedef typedef) := by
  have hremove : start.KeepsLogs good
      (Pass.change (Editable.removeTag typedef.tag) : Pass (Logged Program) Unit) := by
    refine keeps_changed chained_stillLogs.refl fun {log log'} hlog hedit => ?_
    obtain ⟨program, hprogram, rfl⟩ := Logged.exists_of_record hedit
    have hthere := hgood.removeTag (hlog.all_good hstart log.program (.head _)) hprogram
    have hnext : start.Logs good (log.record program) := hlog.next ⟨.removeTag hprogram, hthere⟩
    exact ⟨fun _ => hnext, hnext⟩
  have hinline : start.KeepsLogs good (do
      let references ← Pass.query (Pass.references typedef.name)
      let own ← Pass.ask fun log : Logged Program => Editable.reachable log typedef.key
      Pass.replaceAll typedef own references
      Pass.change (Editable.removeTag typedef.tag)
      return references.length) := by
    refine (keeps_query chained_stillLogs.refl).bind chained_stillLogs.trans fun references => ?_
    refine (keeps_asked chained_stillLogs.refl).bind chained_stillLogs.trans fun own => ?_
    refine Pass.Keeps.bind chained_stillLogs.trans (fun state hlog => ?_) fun _ =>
      stays_bind chained_stillLogs hremove fun _ => stays_pure chained_stillLogs
    have hcovers := hgood.covers (hlog.1.all_good hstart state.program.program (.head _)) hlog.2
    exact keeps_replaceAll hgood hstart typedef own references state ⟨hlog.1, hcovers⟩
  unfold inlineTypedef
  exact stays_unless chained_stillLogs (stays_throw chained_stillLogs) fun _ => hinline

/-- Inlining leads from a good program through good programs only, and its log tells which. -/
theorem exists_log_inlineTypedefs (calls : List HookCall) : ∃ result log calls',
    (inlineTypedefs : Pass (Logged Program) Nat).run.run ⟨⟨start, []⟩, calls⟩ =
      (result, ⟨log, calls'⟩) ∧
    (inlineTypedefs : Pass Program Nat).run.run ⟨start, calls⟩ =
      (result, ⟨log.program, calls'⟩) ∧ start.Logs good log := by
  have hplain := mirrors_inlineTypedefs (σ := Program) ⟨⟨start, []⟩, calls⟩
  have hlogs := (stays_inlineTypedefs chained_stillLogs (keepsLogs_inlineTypedef hgood hstart)
    ⟨⟨start, []⟩, calls⟩ .start).1 .start
  generalize hrun : (inlineTypedefs : Pass (Logged Program) Nat).run.run
    ⟨⟨start, []⟩, calls⟩ = outcome at hplain hlogs
  obtain ⟨result, log, calls'⟩ := outcome
  exact ⟨result, log, calls', rfl, hplain, hlogs⟩

end

end Program

end DocTypes
