import DocTypes.Proofs.Except
import DocTypes.Selector.Match

/-!
# Walks and what is collected on them

A walk from a thing meets what stands below it, with the path that leads there (`mem_walkFrom`). It
succeeds if the things that can be met are closed under what stands below them (`walk_eq_ok`). A
query collects what its test holds of (`collects_of_collect`), in the order of the walk if no two
things are the same (`collect_eq_map`).
-/

namespace DocTypes

open List

namespace View

variable {α : Type} {view : View α}

/-- The path leads down from a thing to another: it lists what stands above the other one, nearest
first, up to the thing. -/
inductive Leads (view : View α) : α → List α → α → Prop
  | refl {thing : α} : Leads view thing [] thing
  | down {thing child inner : α} {children path : List α}
      (here : view.children thing = .ok children)
    (mem : child ∈ children) (later : Leads view child path inner) :
    Leads view thing (path ++ [thing]) inner

/-- What stands below things that are seen can be listed, and is seen too. -/
def Closed (view : View α) (seen : α → Prop) : Prop :=
  ∀ thing, seen thing → ∃ children, view.children thing = .ok children ∧
    ∀ child ∈ children, seen child

section
variable {thing inner : α} {above path : List α} {levels : Nat} {met : List (α × List α)}

/-- A path without steps leads to where it starts. -/
theorem Leads.eq_of_nil (h : view.Leads thing [] inner) : inner = thing := by
  generalize hsteps : [] = steps at h
  cases h with
  | refl => rfl
  | down => exact absurd hsteps.symm (append_ne_nil_of_right_ne_nil _ (cons_ne_nil _ _))

/-- The last step of a path. -/
theorem Leads.parent {parent : α} (h : view.Leads thing (parent :: path) inner) :
    ∃ children, view.Leads thing path parent ∧ view.children parent = .ok children ∧
      inner ∈ children := by
  generalize hsteps : parent :: path = steps at h
  induction h generalizing path with
  | refl => cases hsteps
  | @down thing child inner children between here mem later ih =>
    cases between with
    | nil =>
      cases later.eq_of_nil
      cases hsteps
      exact ⟨children, .refl, here, mem⟩
    | cons next rest =>
      rw [cons_append] at hsteps
      cases hsteps
      obtain ⟨children', hleads, hchildren, hmem⟩ := ih rfl
      exact ⟨children', .down here mem hleads, hchildren, hmem⟩

/-- What a path leads to is seen. -/
theorem Leads.seen {seen : α → Prop} (hclosed : view.Closed seen)
    (h : view.Leads thing path inner) (hthing : seen thing) : seen inner := by
  induction h with
  | refl => exact hthing
  | down here mem _ ih =>
    obtain ⟨children, hchildren, hseen⟩ := hclosed _ hthing
    rw [here] at hchildren
    cases hchildren
    exact ih (hseen _ mem)

/-- A walk through things that are seen succeeds. -/
theorem walkFrom_eq_ok {seen : α → Prop} (hclosed : view.Closed seen) :
    ∀ (levels : Nat) {thing : α} (above : List α), seen thing →
      ∃ met, view.walkFrom levels thing above = .ok met
  | 0, _, _, _ => ⟨[], rfl⟩
  | levels + 1, thing, above, hthing => by
    obtain ⟨children, hchildren, hseen⟩ := hclosed thing hthing
    have hbelow : ∃ below, children.mapM
        (fun child => view.walkFrom levels child (thing :: above)) = .ok below := by
      clear hchildren
      induction children with
      | nil => exact ⟨[], rfl⟩
      | cons child rest ih =>
        obtain ⟨hchild, hrest⟩ := forall_mem_cons.1 hseen
        obtain ⟨first, hfirst⟩ := walkFrom_eq_ok hclosed levels (thing :: above) hchild
        obtain ⟨later, hlater⟩ := ih hrest
        exact ⟨first :: later, mapM_eq_ok.2 (.cons hfirst (mapM_eq_ok.1 hlater))⟩
    obtain ⟨below, hbelow⟩ := hbelow
    refine ⟨(thing, above) :: below.flatten, ?_⟩
    exact bind_eq_ok.2 ⟨children, hchildren, bind_eq_ok.2 ⟨below, hbelow, rfl⟩⟩

/-- A walk starts with its thing, and the rest of it walks through what stands below. -/
theorem walkFrom_succ (h : view.walkFrom (levels + 1) thing above = .ok met) :
    ∃ children below, view.children thing = .ok children ∧
      List.Forall₂ (fun child met => view.walkFrom levels child (thing :: above) = .ok met)
        children below ∧ met = (thing, above) :: below.flatten := by
  obtain ⟨children, hchildren, h⟩ := bind_eq_ok.1 h
  obtain ⟨below, hbelow, h⟩ := bind_eq_ok.1 h
  cases h
  exact ⟨children, below, hchildren, mapM_eq_ok.1 hbelow, rfl⟩

/-- A walk meets what paths lead to that are shorter than the walk is deep. -/
theorem mem_walkFrom : ∀ {levels : Nat} {thing : α} {above : List α} {met : List (α × List α)},
    view.walkFrom levels thing above = .ok met → ∀ {inner : α} {path : List α},
      (inner, path) ∈ met ↔ ∃ between, path = between ++ above ∧ between.length < levels ∧
        view.Leads thing between inner := by
  intro levels
  induction levels with
  | zero =>
    intro thing above met h inner path
    cases h
    exact ⟨nofun, fun ⟨_, _, hlt, _⟩ => absurd hlt (Nat.not_lt_zero _)⟩
  | succ levels ih =>
    intro thing above met h inner path
    obtain ⟨children, below, hchildren, hbelow, rfl⟩ := walkFrom_succ h
    rw [mem_cons, mem_flatten]
    constructor
    · rintro (heq | ⟨walk, hwalk, hmem⟩)
      · cases heq
        exact ⟨[], rfl, Nat.succ_pos _, .refl⟩
      · obtain ⟨child, hchild, hmet⟩ := exists_mem_of_forall₂ hbelow hwalk
        obtain ⟨between, rfl, hlt, hleads⟩ := (ih hmet).1 hmem
        refine ⟨between ++ [thing], by rw [append_assoc]; rfl, ?_, .down hchildren hchild hleads⟩
        rw [length_append, length_singleton]
        omega
    · rintro ⟨between, rfl, hlt, hleads⟩
      cases hleads with
      | refl => exact .inl rfl
      | @down _ child _ children' between here mem later =>
        right
        rw [hchildren] at here
        cases here
        obtain ⟨walk, hwalk, hmet⟩ := exists_mem_of_forall₂_left hbelow mem
        refine ⟨walk, hwalk, (ih hmet).2 ⟨between, by rw [append_assoc]; rfl, ?_, later⟩⟩
        rw [length_append, length_singleton] at hlt
        omega

/-- Behind its thing a walk meets what paths of at least one step lead to. -/
theorem mem_drop_walkFrom (h : view.walkFrom (levels + 1) thing above = .ok met) :
    (inner, path) ∈ met.drop 1 ↔ ∃ between, path = between ++ thing :: above ∧
      between.length < levels ∧ view.Leads thing (between ++ [thing]) inner := by
  obtain ⟨children, below, hchildren, hbelow, rfl⟩ := walkFrom_succ h
  rw [drop_one, tail_cons, mem_flatten]
  constructor
  · rintro ⟨walk, hwalk, hmem⟩
    obtain ⟨child, hchild, hmet⟩ := exists_mem_of_forall₂ hbelow hwalk
    obtain ⟨between, rfl, hlt, hleads⟩ := (mem_walkFrom hmet).1 hmem
    exact ⟨between, rfl, hlt, .down hchildren hchild hleads⟩
  · rintro ⟨between, rfl, hlt, hleads⟩
    generalize hsteps : between ++ [thing] = steps at hleads
    cases hleads with
    | refl => exact absurd hsteps (append_ne_nil_of_right_ne_nil _ (cons_ne_nil _ _))
    | @down _ child _ children' between' here mem later =>
      rw [hchildren] at here
      cases here
      cases append_cancel_right hsteps
      obtain ⟨walk, hwalk, hmet⟩ := exists_mem_of_forall₂_left hbelow mem
      exact ⟨walk, hwalk, (mem_walkFrom hmet).2 ⟨between, rfl, hlt, later⟩⟩

end

section
variable {p : α → List α → Except AccessFault Bool}

/-- What is collected has passed the test and is apart from what was found before. All else has not
passed the test, or is the same as something found. -/
structure Collects (view : View α) (p : α → List α → Except AccessFault Bool) (found : List α)
    (entries : List (α × List α)) (result : List α) : Prop where
  passed : ∀ thing ∈ result, ∃ above, (thing, above) ∈ entries ∧ p thing above = .ok true
  apart : ∀ thing ∈ result, ∀ other ∈ found, view.same thing other = false
  once : result.Pairwise fun first second => view.same second first = false
  complete : ∀ thing above, (thing, above) ∈ entries → p thing above = .ok false ∨
    ∃ other ∈ found ++ result, other = thing ∨ view.same thing other = true

/-- An entry may be left out that does not pass the test, or is the same as something found. -/
theorem Collects.skip {found result : List α} {entries : List (α × List α)} {thing : α}
    {above : List α} (h : view.Collects p found entries result)
    (hskip : p thing above = .ok false ∨ found.any (view.same thing) = true) :
    view.Collects p found ((thing, above) :: entries) result where
  passed other hother :=
    have ⟨above', hmem, hpassed⟩ := h.passed other hother
    ⟨above', .tail _ hmem, hpassed⟩
  apart := h.apart
  once := h.once
  complete other above' hmem := by
    rcases mem_cons.1 hmem with heq | hmem
    · cases heq
      refine hskip.imp_right fun hany => ?_
      obtain ⟨same, hsame, htrue⟩ := any_eq_true.1 hany
      exact ⟨same, mem_append_left _ hsame, .inr htrue⟩
    · exact h.complete other above' hmem

/-- An entry that passes the test is collected, if it is the same as nothing found. -/
theorem Collects.take {found result : List α} {entries : List (α × List α)} {thing : α}
    {above : List α} (h : view.Collects p (thing :: found) entries result)
    (hpassed : p thing above = .ok true) (hnew : ¬ found.any (view.same thing) = true) :
    view.Collects p found ((thing, above) :: entries) (thing :: result) where
  passed := forall_mem_cons.2 ⟨⟨above, .head _, hpassed⟩, fun other hother =>
    have ⟨above', hmem, hpassed⟩ := h.passed other hother
    ⟨above', .tail _ hmem, hpassed⟩⟩
  apart := by
    refine forall_mem_cons.2 ⟨fun other hother => ?_, fun other hother => ?_⟩
    · exact Bool.eq_false_iff.2 fun hsame => hnew (any_eq_true.2 ⟨other, hother, hsame⟩)
    · exact (forall_mem_cons.1 (h.apart other hother)).2
  once := pairwise_cons.2 ⟨fun other hother => h.apart other hother thing (.head _), h.once⟩
  complete other above' hmem := by
    rcases mem_cons.1 hmem with heq | hmem
    · cases heq
      exact .inr ⟨thing, by simp, .inl rfl⟩
    · refine (h.complete other above' hmem).imp_right fun ⟨same, hsame, htrue⟩ => ?_
      exact ⟨same, perm_middle.mem_iff.2 hsame, htrue⟩

/-- What a query collects. -/
theorem collects_of_collect : ∀ {entries : List (α × List α)} {found result : List α},
    view.collect p found entries = .ok result → view.Collects p found entries result
  | [], _, _, h => by
    cases h
    exact ⟨nofun, nofun, .nil, nofun⟩
  | (thing, above) :: rest, found, result, h => by
    rw [collect] at h
    split at h
    case isTrue hany => exact (collects_of_collect h).skip (.inr hany)
    case isFalse hnew =>
      obtain ⟨answer, hanswer, h⟩ := bind_eq_ok.1 h
      cases answer with
      | false => exact (collects_of_collect h).skip (.inl hanswer)
      | true =>
        obtain ⟨later, hlater, h⟩ := bind_eq_ok.1 h
        cases h
        exact (collects_of_collect hlater).take hanswer hnew

/-- A test that answers everywhere collects something. -/
theorem exists_collect (view : View α) (p : α → List α → Except AccessFault Bool) :
    ∀ {entries : List (α × List α)} (found : List α),
      (∀ entry ∈ entries, ∃ answer, p entry.1 entry.2 = .ok answer) →
        ∃ result, view.collect p found entries = .ok result
  | [], _, _ => ⟨[], rfl⟩
  | (thing, above) :: rest, found, h => by
    obtain ⟨⟨answer, hanswer⟩, hrest⟩ := forall_mem_cons.1 h
    obtain ⟨result, hresult⟩ := exists_collect view p found hrest
    obtain ⟨later, hlater⟩ := exists_collect view p (thing :: found) hrest
    rw [collect]
    split
    · exact ⟨result, hresult⟩
    · cases answer with
      | false => exact ⟨result, bind_eq_ok.2 ⟨false, hanswer, hresult⟩⟩
      | true =>
        exact ⟨thing :: later, bind_eq_ok.2 ⟨true, hanswer, bind_eq_ok.2 ⟨later, hlater, rfl⟩⟩⟩

/-- What does not pass the test can be left out. -/
theorem collect_filter {q : α → List α → Bool} : ∀ {entries : List (α × List α)} (found : List α),
    (∀ entry ∈ entries, p entry.1 entry.2 = .ok (q entry.1 entry.2)) →
      view.collect p found entries =
        view.collect p found (entries.filter fun entry => q entry.1 entry.2)
  | [], _, _ => rfl
  | (thing, above) :: rest, found, h => by
    obtain ⟨hfirst, hrest⟩ := forall_mem_cons.1 h
    have hrest' := fun found => collect_filter found hrest
    cases hq : q thing above with
    | false =>
      rw [filter_cons_of_neg (by simp [hq]), ← hrest', collect, hfirst, hq]
      split
      · rfl
      · rfl
    | true => rw [filter_cons_of_pos (by simp [hq]), collect, collect, hrest', hrest']

/-- What passes the test and is met once is collected. -/
theorem collect_eq_map : ∀ {entries : List (α × List α)} (found : List α),
    (∀ entry ∈ entries, p entry.1 entry.2 = .ok true) →
    (entries.map Prod.fst).Pairwise (fun first second => view.same second first = false) →
    (∀ entry ∈ entries, ∀ other ∈ found, view.same entry.1 other = false) →
      view.collect p found entries = .ok (entries.map Prod.fst)
  | [], _, _, _, _ => rfl
  | (thing, above) :: rest, found, h, hapart, hfound => by
    obtain ⟨hfirst, hrest⟩ := forall_mem_cons.1 h
    obtain ⟨hthing, hfoundRest⟩ := forall_mem_cons.1 hfound
    rw [map_cons, pairwise_cons] at hapart
    have hnew : ¬ found.any (view.same thing) = true := by
      rw [any_eq_true]
      rintro ⟨other, hother, hsame⟩
      rw [hthing other hother] at hsame
      cases hsame
    have hlater : view.collect p (thing :: found) rest = .ok (rest.map Prod.fst) := by
      refine collect_eq_map (thing :: found) hrest hapart.2 fun entry hentry => ?_
      refine forall_mem_cons.2 ⟨?_, hfoundRest entry hentry⟩
      exact hapart.1 entry.1 (mem_map_of_mem hentry)
    rw [collect, if_neg hnew]
    exact bind_eq_ok.2 ⟨true, hfirst, bind_eq_ok.2 ⟨_, hlater, rfl⟩⟩

/-- What passes a test on walks one after the other, given what passes it on each. -/
theorem filter_flatten {test : α × List α → Bool} {select : α → List α} {things : List α}
    {walks : List (List (α × List α))}
    (h : List.Forall₂ (fun thing walk => (walk.filter test).map Prod.fst = select thing)
      things walks) : (walks.flatten.filter test).map Prod.fst = things.flatMap select := by
  induction h with
  | nil => rfl
  | cons hwalk _ ih =>
    rw [flatten_cons, filter_append, map_append, hwalk, ih, flatMap_cons]

end

end View

end DocTypes
