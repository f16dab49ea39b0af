import DocTypes.Proofs.Pass.Keeps

/-!
# Passes over programs that keep a log

A pass works on programs however they are kept, so it also works on a program that keeps what it was
before each edit (`Logged`). Nothing that a pass asks looks at the log. So a pass over a logged
program is the same pass over the program alone (`Mirrors`), and the log holds all programs that the
pass went through, also if it failed.
-/

namespace DocTypes

/-- A program, and what it was before, the last one first. -/
structure Logged (σ : Type) where
  program : σ
  past : List σ := []

namespace Logged

variable {σ α κ : Type}

/-- The programs that were gone through, the last one first. -/
def states (log : Logged σ) : List σ :=
  log.program :: log.past

/-- The log after an edit. -/
def record (log : Logged σ) (program : σ) : Logged σ :=
  ⟨program, log.states⟩

instance [Editable σ α κ] : Editable (Logged σ) α κ where
  select log := Editable.select log.program
  typedef? log := Editable.typedef? log.program
  line log := Editable.line log.program
  keyOf log := Editable.keyOf log.program
  reachable log := Editable.reachable log.program
  replaceType key source log := (Editable.replaceType key source log.program).map log.record
  removeTag tag log := (Editable.removeTag tag log.program).map log.record
  unregister blocks log := (Editable.unregister blocks log.program).map (Prod.map id log.record)
  owner? log := Editable.owner? log.program
  docTags? log := Editable.docTags? log.program
  role log := Editable.role log.program
  typeText log := Editable.typeText log.program
  mark? log := Editable.mark? log.program
  cast type log := (Editable.cast type log.program).map (Prod.map id log.record)
  typedef name type log := (Editable.typedef name type log.program).map (Prod.map id log.record)
  append blocks log := (Editable.append blocks log.program).map log.record

/-- What was recorded is what an edit led to. -/
theorem exists_of_record {edited : Except AccessFault σ} {log log' : Logged σ}
    (h : edited.map log.record = .ok log') :
    ∃ program, edited = .ok program ∧ log' = log.record program := by
  cases edited with
  | error => cases h
  | ok program => exact ⟨program, rfl, (Except.ok.inj h).symm⟩

/-- The log leads from a program to the present one, each time by a step. -/
inductive Follows (step : σ → σ → Prop) (start : σ) : Logged σ → Prop
  | start : Follows step start ⟨start, []⟩
  | next {log : Logged σ} {program : σ} (earlier : Follows step start log)
    (last : step log.program program) : Follows step start (log.record program)

/-- A log of steps of one kind is one of steps of another, if they are. -/
theorem Follows.imp {step step' : σ → σ → Prop} {start : σ} {log : Logged σ}
    (h : log.Follows step start) (himp : ∀ before after, step before after → step' before after) :
    log.Follows step' start := by
  induction h with
  | start => exact .start
  | next _ last ih => exact .next ih (himp _ _ last)

end Logged

/-- What a pass works on, without the log. -/
def PassState.plain {σ : Type} (state : PassState (Logged σ)) : PassState σ :=
  ⟨state.program.program, state.calls⟩

namespace Pass

variable {σ α κ β γ : Type}

/-- The first pass does to a logged program what the second does to the program alone. -/
def Mirrors (logged : Pass (Logged σ) β) (pass : Pass σ β) : Prop :=
  ∀ state : PassState (Logged σ),
    pass.run.run state.plain = ((logged.run.run state).1, (logged.run.run state).2.plain)

theorem mirrors_pure (answer : β) : Mirrors (pure answer : Pass (Logged σ) β) (pure answer) :=
  fun _ => rfl

theorem mirrors_throw (fault : PassFault) :
    Mirrors (throw fault : Pass (Logged σ) β) (throw fault) :=
  fun _ => rfl

/-- Passes one after the other. -/
theorem Mirrors.bind {logged : Pass (Logged σ) β} {pass : Pass σ β}
    {nextLogged : β → Pass (Logged σ) γ} {next : β → Pass σ γ} (h : Mirrors logged pass)
    (hnext : ∀ answer, Mirrors (nextLogged answer) (next answer)) :
    Mirrors (logged >>= nextLogged) (pass >>= next) := by
  intro state
  rw [run_bind, run_bind, h state]
  generalize logged.run.run state = outcome
  obtain ⟨answer | answer, after⟩ := outcome
  · rfl
  · exact hnext answer after

/-- A question that is put to the program. -/
theorem mirrors_ask (question : σ → Except AccessFault β) :
    Mirrors (ask fun log : Logged σ => question log.program) (ask question) := by
  intro state
  rw [run_ask, run_ask]
  rfl

/-- An edit of the program. -/
theorem mirrors_change (edit : σ → Except AccessFault σ) :
    Mirrors (change fun log : Logged σ => (edit log.program).map log.record) (change edit) := by
  intro state
  rw [run_change, run_change]
  cases hedit : edit state.program.program with
  | error => simp only [PassState.plain, hedit, Except.map]
  | ok => simp only [PassState.plain, hedit, Except.map, Logged.record]

section
variable [Editable σ α κ]

/-- A query. -/
theorem mirrors_query (text : String) :
    Mirrors (query text : Pass (Logged σ) (List α)) (query text) := by
  intro state
  rw [run_query, run_query]
  rfl

/-- A pass that is mapped over a list. -/
theorem mirrors_mapM {logged : γ → Pass (Logged σ) β} {pass : γ → Pass σ β}
    (h : ∀ item, Mirrors (logged item) (pass item)) (items : List γ) :
    Mirrors (items.mapM logged) (items.mapM pass) := by
  induction items with
  | nil => exact mirrors_pure []
  | cons item rest ih =>
    rw [List.mapM_cons, List.mapM_cons]
    exact (h item).bind fun answer => ih.bind fun answers => mirrors_pure (answer :: answers)

/-- Looking for typedefs among tags. -/
theorem mirrors_typedefsFrom (tags : List α) : ∀ seen : List (Typedef α κ),
    Mirrors (typedefsFrom seen tags : Pass (Logged σ) (List (Typedef α κ)))
      (typedefsFrom seen tags) := by
  induction tags with
  | nil => exact fun _ => mirrors_pure []
  | cons tag rest ih =>
    intro seen
    refine (mirrors_ask fun program : σ => Editable.typedef? program tag).bind fun facts => ?_
    cases facts with
    | none => exact ih seen
    | some facts =>
      dsimp only
      split
      case h_1 earlier _ =>
        refine (mirrors_ask fun program : σ => Editable.line program earlier.tag).bind fun _ => ?_
        exact (mirrors_ask fun program : σ => Editable.line program tag).bind fun _ =>
          mirrors_throw _
      case h_2 => exact (ih _).bind fun found => mirrors_pure (_ :: found)

variable [BEq κ]

/-- Replacing references. -/
theorem mirrors_replaceAll (typedef : Typedef α κ) (own : List κ) (references : List α) :
    Mirrors (replaceAll typedef own references : Pass (Logged σ) Unit)
      (replaceAll typedef own references) := by
  induction references with
  | nil => exact mirrors_pure ()
  | cons reference rest ih =>
    refine (mirrors_ask fun program : σ => Editable.keyOf program reference).bind fun key => ?_
    have hreplace := (mirrors_change fun program : σ =>
      Editable.replaceType key typedef.key program).bind fun _ => ih
    dsimp only
    split
    · refine (mirrors_ask fun program : σ => Editable.line program typedef.tag).bind fun _ => ?_
      exact (mirrors_throw _).bind fun _ => hreplace
    · exact hreplace

/-- Inlining one typedef. -/
theorem mirrors_inlineTypedef (typedef : Typedef α κ) :
    Mirrors (inlineTypedef typedef : Pass (Logged σ) Nat) (inlineTypedef typedef) := by
  have hinline := (mirrors_query (σ := σ) (references typedef.name)).bind fun found : List α =>
    (mirrors_ask fun program : σ => Editable.reachable program typedef.key).bind fun own =>
      (mirrors_replaceAll typedef own found).bind fun _ =>
        (mirrors_change fun program : σ => Editable.removeTag typedef.tag program).bind fun _ =>
          mirrors_pure found.length
  unfold inlineTypedef
  split
  · exact (mirrors_throw _).bind fun _ => hinline
  · exact hinline

/-- Inlining all local typedefs. -/
theorem mirrors_inlineTypedefs :
    Mirrors (inlineTypedefs : Pass (Logged σ) Nat) (inlineTypedefs : Pass σ Nat) := by
  have hfind : Mirrors (findTypedefs : Pass (Logged σ) (List (Typedef α κ))) findTypedefs :=
    (mirrors_query (σ := σ) localTypedefs).bind fun tags => mirrors_typedefsFrom tags []
  refine hfind.bind fun typedefs => ?_
  exact (mirrors_mapM mirrors_inlineTypedef typedefs).bind fun counts => mirrors_pure _

end

end Pass

end DocTypes
