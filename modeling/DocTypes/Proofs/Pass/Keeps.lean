import DocTypes.Pass.ClassTypes
import DocTypes.Proofs.Except

/-!
# What passes keep

A pass may fail, and then the program is as the pass left it. `Keeps` says of a pass that it leads
from a program to one that stands in a relation to it, whether it fails or not. `Editable.Kept` says
that the edits of the passes for local blocks do, and from it these passes do
(`follows_inlineTypedefs`, `follows_removeLocals`).
-/

namespace DocTypes

/-- A relation along which passes can be followed one after the other. -/
structure Pass.Chained {σ : Type} (rel : σ → σ → Prop) : Prop where
  refl : ∀ program, rel program program
  trans : ∀ {first second third}, rel first second → rel second third → rel first third

/-- A relation between programs that the edits of local blocks keep. -/
structure Editable.Kept {σ α κ : Type} [Editable σ α κ] (rel : σ → σ → Prop) : Prop
    extends Pass.Chained rel where
  replaceType : ∀ {key source : κ} {program program' : σ},
    Editable.replaceType key source program = .ok program' → rel program program'
  removeTag : ∀ {tag : α} {program program' : σ},
    Editable.removeTag tag program = .ok program' → rel program program'
  unregister : ∀ {blocks : List α} {program program' : σ} {count : Nat},
    Editable.unregister blocks program = .ok (count, program') → rel program program'

namespace Pass

variable {σ α κ β γ : Type}

/-- From a program with `pre` the pass leads to one that stands in the relation to it; and if it
succeeds, `post` holds of its answer. -/
def Keeps (rel : σ → σ → Prop) (pre : σ → Prop) (pass : Pass σ β) (post : β → σ → Prop) : Prop :=
  ∀ state : PassState σ, pre state.program →
    rel state.program (pass.run.run state).2.program ∧
      ∀ answer, (pass.run.run state).1 = .ok answer →
        post answer (pass.run.run state).2.program

/-- Passes one after the other: the second is run if the first succeeds. -/
theorem run_bind (first : Pass σ β) (next : β → Pass σ γ) (state : PassState σ) :
    (first >>= next).run.run state =
      match first.run.run state with
      | (.ok answer, state) => (next answer).run.run state
      | (.error fault, state) => (.error fault, state) := by
  unfold ExceptT.run StateT.run
  simp only [bind, ExceptT.bind, ExceptT.mk, StateT.bind, ExceptT.bindCont]
  cases first state with
  | mk result after => cases result <;> rfl

/-- A pass goes on from where one that succeeds leads. -/
theorem run_bind_ok {first : Pass σ β} {next : β → Pass σ γ} {state middle : PassState σ}
    {answer : β} (h : first.run.run state = (.ok answer, middle)) :
    (first >>= next).run.run state = (next answer).run.run middle := by
  rw [run_bind, h]

/-- A chain of passes succeeds if both do. -/
theorem run_bind_eq_ok {first : Pass σ β} {next : β → Pass σ γ} {state state' : PassState σ}
    {answer : γ} : (first >>= next).run.run state = (.ok answer, state') ↔
      ∃ value middle, first.run.run state = (.ok value, middle) ∧
        (next value).run.run middle = (.ok answer, state') := by
  rw [run_bind]
  obtain ⟨fault | value, middle⟩ := first.run.run state
  · exact ⟨nofun, fun ⟨_, _, h, _⟩ => nomatch h⟩
  · refine ⟨fun h => ⟨value, middle, rfl, h⟩, ?_⟩
    rintro ⟨_, _, h, h'⟩
    cases h
    exact h'

theorem run_program_bind (next : σ → Pass σ β) (state : PassState σ) :
    (program >>= next).run.run state = (next state.program).run.run state :=
  rfl

/-- Asking changes nothing. -/
theorem run_ask (question : σ → Except AccessFault β) (state : PassState σ) :
    (ask question).run.run state = ((question state.program).mapError .access, state) := by
  rw [ask, run_program_bind]
  cases question state.program <;> rfl

/-- What the program is after an edit that may fail. -/
theorem run_perform (edit : σ → Except PassFault (β × σ)) (state : PassState σ) :
    (perform edit).run.run state =
      match edit state.program with
      | .ok (answer, program) => (.ok answer, { state with program })
      | .error fault => (.error fault, state) := by
  rw [perform, run_program_bind]
  cases edit state.program <;> rfl

/-- What the program is after an edit without an answer. -/
theorem run_change (edit : σ → Except AccessFault σ) (state : PassState σ) :
    (change edit).run.run state =
      match edit state.program with
      | .ok program => (.ok (), { state with program })
      | .error fault => (.error (.access fault), state) := by
  rw [change, run_perform]
  cases edit state.program <;> rfl

/-- A query changes nothing. -/
theorem run_query [Editable σ α κ] (text : String) (state : PassState σ) :
    (query text).run.run state =
      ((Editable.select state.program text).mapError .ofQuery, state) := by
  rw [query, run_program_bind]
  cases Editable.select state.program text <;> rfl

section
variable {rel : σ → σ → Prop} {pre : σ → Prop} {post : β → σ → Prop}

/-- A weaker post-condition. -/
theorem Keeps.imp {pass : Pass σ β} {post' : β → σ → Prop} (h : Keeps rel pre pass post)
    (hpost : ∀ answer program, post answer program → post' answer program) :
    Keeps rel pre pass post' :=
  fun state hpre => ⟨(h state hpre).1, fun answer hanswer =>
    hpost _ _ ((h state hpre).2 answer hanswer)⟩

/-- Passes one after the other. -/
theorem Keeps.bind {first : Pass σ β} {next : β → Pass σ γ} {post' : γ → σ → Prop}
    (htrans : ∀ {first second third}, rel first second → rel second third → rel first third)
    (h : Keeps rel pre first post) (hnext : ∀ answer, Keeps rel (post answer) (next answer) post') :
    Keeps rel pre (first >>= next) post' := by
  intro state hpre
  obtain ⟨hrel, hpost⟩ := h state hpre
  rw [run_bind]
  generalize first.run.run state = outcome at hrel hpost
  obtain ⟨answer | answer, after⟩ := outcome
  · exact ⟨hrel, nofun⟩
  · obtain ⟨hrel', hpost'⟩ := hnext answer after (hpost answer rfl)
    exact ⟨htrans hrel hrel', hpost'⟩

variable (hrefl : ∀ program, rel program program)
include hrefl

theorem keeps_pure {answer : β} (hpost : ∀ program, pre program → post answer program) :
    Keeps rel pre (pure answer) post :=
  fun state hpre => ⟨hrefl _, fun _ heq => by cases heq; exact hpost _ hpre⟩

theorem keeps_throw {fault : PassFault} : Keeps rel pre (throw fault : Pass σ β) post :=
  fun _ _ => ⟨hrefl _, nofun⟩

/-- A pass that asks, with what it was answered. -/
theorem keeps_asked {question : σ → Except AccessFault β} :
    Keeps rel pre (ask question) fun answer program =>
      pre program ∧ question program = .ok answer := by
  intro state hpre
  rw [run_ask]
  exact ⟨hrefl _, fun _ hanswer => ⟨hpre, mapError_eq_ok.1 hanswer⟩⟩

theorem keeps_ask {question : σ → Except AccessFault β} :
    Keeps rel pre (ask question) fun _ program => pre program :=
  (keeps_asked hrefl).imp fun _ _ => And.left

/-- A pass that selects. -/
theorem keeps_query [Editable σ α κ] {text : String} :
    Keeps rel pre (query text) fun _ program => pre program := by
  intro state hpre
  rw [run_query]
  exact ⟨hrefl _, fun _ _ => hpre⟩

/-- A pass that makes an edit. -/
theorem keeps_perform {edit : σ → Except PassFault (β × σ)}
    (h : ∀ {program answer program'}, pre program → edit program = .ok (answer, program') →
      rel program program' ∧ post answer program') : Keeps rel pre (perform edit) post := by
  intro state hpre
  rw [run_perform]
  cases hedit : edit state.program with
  | error fault => exact ⟨hrefl _, nofun⟩
  | ok outcome =>
    obtain ⟨answer, program⟩ := outcome
    obtain ⟨hrel, hpost⟩ := h hpre hedit
    exact ⟨hrel, fun _ heq => by cases heq; exact hpost⟩

/-- A pass that makes an edit without an answer, with what holds then. -/
theorem keeps_changed {edit : σ → Except AccessFault σ} {kept : σ → Prop}
    (h : ∀ {program program'}, pre program → edit program = .ok program' →
      rel program program' ∧ kept program') : Keeps rel pre (change edit) fun _ => kept := by
  intro state hpre
  rw [run_change]
  cases hedit : edit state.program with
  | error fault => exact ⟨hrefl _, nofun⟩
  | ok program => exact ⟨(h hpre hedit).1, fun _ _ => (h hpre hedit).2⟩

/-- A pass that makes an edit without an answer. -/
theorem keeps_change {edit : σ → Except AccessFault σ}
    (h : ∀ {program program'}, pre program → edit program = .ok program' → rel program program') :
    Keeps rel pre (change edit) fun _ _ => True :=
  keeps_changed hrefl fun hpre hedit => ⟨h hpre hedit, trivial⟩

end

/-- A pass that leads along a relation, whether it fails or not, and keeps an invariant if not. -/
def Stays (rel : σ → σ → Prop) (inv : σ → Prop) (pass : Pass σ β) : Prop :=
  Keeps rel inv pass fun _ => inv

section
variable {rel : σ → σ → Prop} {inv : σ → Prop} (hc : Chained rel)
include hc

theorem stays_bind {first : Pass σ β} {next : β → Pass σ γ} (h : Stays rel inv first)
    (hnext : ∀ answer, Stays rel inv (next answer)) : Stays rel inv (first >>= next) :=
  Keeps.bind hc.trans h hnext

theorem stays_pure {answer : β} : Stays rel inv (pure answer : Pass σ β) :=
  keeps_pure hc.refl fun _ => id

theorem stays_throw {fault : PassFault} : Stays rel inv (throw fault : Pass σ β) :=
  keeps_throw hc.refl

theorem stays_ask {question : σ → Except AccessFault β} : Stays rel inv (ask question) :=
  keeps_ask hc.refl

/-- A pass that is refused on a condition. -/
theorem stays_unless {c : Prop} [Decidable c] {refuse : Pass σ PUnit} {next : PUnit → Pass σ β}
    (h : Stays rel inv refuse) (hnext : ∀ done, Stays rel inv (next done)) :
    Stays rel inv (if c then refuse >>= next else next ⟨⟩) := by
  split
  · exact stays_bind hc h hnext
  · exact hnext ⟨⟩

/-- A pass that is mapped over a list. -/
theorem stays_mapM {step : γ → Pass σ β} (h : ∀ item, Stays rel inv (step item)) (items : List γ) :
    Stays rel inv (items.mapM step) := by
  induction items with
  | nil =>
    rw [List.mapM_nil]
    exact stays_pure hc
  | cons item rest ih =>
    rw [List.mapM_cons]
    exact stays_bind hc (h item) fun _ => stays_bind hc ih fun _ => stays_pure hc

/-! ## Local typedefs -/

variable [Editable σ α κ]

/-- Looking for typedefs among tags. -/
theorem stays_typedefsFrom (tags : List α) :
    ∀ seen : List (Typedef α κ), Stays rel inv (typedefsFrom seen tags) := by
  induction tags with
  | nil => exact fun _ => stays_pure hc
  | cons tag rest ih =>
    intro seen
    refine stays_bind hc (stays_ask hc) fun facts => ?_
    split
    · exact ih seen
    · split
      · exact stays_bind hc (stays_ask hc) fun _ => stays_bind hc (stays_ask hc) fun _ =>
          stays_throw hc
      · exact stays_bind hc (ih _) fun _ => stays_pure hc

/-- Inlining all local typedefs. -/
theorem stays_inlineTypedefs [BEq κ]
    (h : ∀ typedef, Stays rel inv (inlineTypedef typedef : Pass σ Nat)) :
    Stays rel inv (inlineTypedefs : Pass σ Nat) := by
  have hfind : Stays rel inv (findTypedefs : Pass σ (List (Typedef α κ))) :=
    stays_bind hc (keeps_query hc.refl) fun tags => stays_typedefsFrom hc tags []
  refine stays_bind hc hfind fun typedefs => ?_
  exact stays_bind hc (stays_mapM hc h typedefs) fun _ => stays_pure hc

end

/-- A pass that leads along a relation from every program. -/
abbrev Follows (rel : σ → σ → Prop) (pass : Pass σ β) : Prop :=
  Stays rel (fun _ => True) pass

section
variable [Editable σ α κ] {rel : σ → σ → Prop} (hk : Editable.Kept rel)
include hk

/-- Replacing references. -/
theorem follows_replaceAll [BEq κ] (typedef : Typedef α κ) (own : List κ) (references : List α) :
    Follows rel (replaceAll typedef own references) := by
  have hc := hk.toChained
  induction references with
  | nil => exact stays_pure hc
  | cons reference rest ih =>
    refine stays_bind hc (stays_ask hc) fun key => ?_
    split
    · refine stays_bind hc (stays_ask hc) fun _ => stays_bind hc (stays_throw hc) fun _ => ?_
      exact stays_bind hc (keeps_change hc.refl fun _ h => hk.replaceType h) fun _ => ih
    · exact stays_bind hc (keeps_change hc.refl fun _ h => hk.replaceType h) fun _ => ih

/-- Inlining all local typedefs. -/
theorem follows_inlineTypedefs [BEq κ] : Follows rel (inlineTypedefs : Pass σ Nat) := by
  have hc := hk.toChained
  refine stays_inlineTypedefs hc fun typedef => ?_
  unfold inlineTypedef
  refine stays_unless hc (stays_throw hc) fun _ => ?_
  refine stays_bind hc (keeps_query hc.refl) fun references =>
    stays_bind hc (stays_ask hc) fun own => ?_
  refine stays_bind hc (follows_replaceAll hk typedef own references) fun _ => ?_
  exact stays_bind hc (keeps_change hc.refl fun _ h => hk.removeTag h) fun _ => stays_pure hc

/-- Removing the blocks that hold nothing but `@local`. -/
theorem follows_removeLocals : Follows rel (removeLocals : Pass σ Nat) := by
  refine stays_bind hk.toChained (keeps_query hk.refl) fun doomed => ?_
  split
  · exact stays_pure hk.toChained
  · refine keeps_perform hk.refl fun {program answer program'} _ h => ⟨?_, trivial⟩
    exact hk.unregister (mapError_eq_ok.1 h)

end

end Pass

end DocTypes
