import DocTypes.Proofs.Selector.Walk

/-!
# How deep selectors look

A view gives a bound for the length of the paths in it, and a walk goes no deeper. A thing is
`Shallow` if no path that starts from it is as long as the bound. A walk from there leaves nothing
out, and so no query that starts there depends on the bound: with a higher one it has the same
answer (`query_deeper`).
-/

namespace DocTypes

open List

namespace View

variable {α : Type} {view : View α} {thing inner : α} {path above : List α} {levels : Nat}

/-- The view with another bound. -/
def deeper (view : View α) (levels : Nat) : View α :=
  { view with levels }

/-- The bound has no part in a walk of some levels. -/
theorem walkFrom_deeper (view : View α) (bound : Nat) : ∀ (levels : Nat) (thing : α)
    (above : List α), (view.deeper bound).walkFrom levels thing above =
      view.walkFrom levels thing above
  | 0, _, _ => rfl
  | levels + 1, thing, above => by
    have hbelow : (fun child => (view.deeper bound).walkFrom levels child (thing :: above)) =
        fun child => view.walkFrom levels child (thing :: above) :=
      funext fun child => walkFrom_deeper view bound levels child (thing :: above)
    rw [walkFrom, walkFrom, hbelow]
    rfl

/-- Neither has it in what a path of attributes leads to. -/
theorem follow?_deeper (view : View α) (bound : Nat) : ∀ (path : List String) (thing : α),
    (view.deeper bound).follow? thing path = view.follow? thing path
  | [], _ => rfl
  | name :: path, thing => by
    rw [follow?, follow?, funext (follow?_deeper view bound path)]
    rfl

/-- All paths down from a thing have fewer steps than `levels`. -/
def Within (view : View α) (levels : Nat) (thing : α) : Prop :=
  ∀ path inner, view.Leads thing path inner → path.length < levels

/-- All paths down from a thing are shorter than the view's bound. -/
def Shallow (view : View α) (thing : α) : Prop :=
  view.Within view.levels thing

/-- A thing is one level above what stands below it. -/
theorem within_succ {children : List α} (hchildren : view.children thing = .ok children)
    (h : ∀ child ∈ children, view.Within levels child) : view.Within (levels + 1) thing := by
  intro path inner hleads
  cases hleads with
  | refl => exact Nat.succ_pos _
  | down here mem later =>
    rw [hchildren] at here
    cases here
    rw [length_append, length_singleton]
    exact Nat.succ_lt_succ (h _ mem _ _ later)

/-- Paths that are short enough are so with a higher bound. -/
theorem Within.mono {more : Nat} (h : view.Within levels thing) (hle : levels ≤ more) :
    view.Within more thing :=
  fun path inner hleads => Nat.lt_of_lt_of_le (h path inner hleads) hle

/-- Paths one after the other. -/
theorem Leads.trans {middle : α} {later : List α} (h : view.Leads thing path middle)
    (h' : view.Leads middle later inner) : view.Leads thing (later ++ path) inner := by
  induction h with
  | refl => rwa [append_nil]
  | down here mem _ ih =>
    rw [← append_assoc]
    exact .down here mem (ih h')

/-- A path leads to everything on it. -/
theorem Leads.of_mem (h : view.Leads thing path inner) {other : α} (hother : other ∈ path) :
    ∃ before, view.Leads thing before other := by
  induction h with
  | refl => cases hother
  | down here mem _ ih =>
    rcases mem_append.1 hother with hother | hother
    · obtain ⟨before, hleads⟩ := ih hother
      exact ⟨_, .down here mem hleads⟩
    · cases mem_singleton.1 hother
      exact ⟨[], .refl⟩

/-- What stands below a shallow thing is shallow. -/
theorem Shallow.below (h : view.Shallow thing) (hleads : view.Leads thing path inner) :
    view.Shallow inner := by
  intro later other hlater
  have hlength := h _ _ (hleads.trans hlater)
  rw [length_append] at hlength
  omega

/-- A walk that is deeper than all paths leaves nothing out. -/
theorem walkFrom_eq_of_le : ∀ {levels more : Nat} {thing : α} (above : List α),
    view.Within levels thing → levels ≤ more →
      view.walkFrom more thing above = view.walkFrom levels thing above := by
  intro levels
  induction levels with
  | zero => exact fun _ hshort _ => absurd (hshort [] _ .refl) (Nat.not_lt_zero _)
  | succ levels ih =>
    intro more thing above hshort hle
    obtain ⟨more, rfl⟩ := Nat.exists_eq_add_one.2 (Nat.lt_of_lt_of_le (Nat.succ_pos _) hle)
    rw [walkFrom, walkFrom]
    cases hchildren : view.children thing with
    | error => rfl
    | ok children =>
      have hbelow : ∀ child ∈ children, view.walkFrom more child (thing :: above) =
          view.walkFrom levels child (thing :: above) := by
        intro child hchild
        refine ih _ (fun path inner hleads => ?_) (Nat.le_of_succ_le_succ hle)
        have hlength := hshort _ _ (.down hchildren hchild hleads)
        rw [length_append, length_singleton] at hlength
        exact Nat.lt_of_succ_lt_succ hlength
      have hmap : children.mapM (fun child => view.walkFrom more child (thing :: above)) =
          children.mapM fun child => view.walkFrom levels child (thing :: above) := by
        clear hchildren
        induction children with
        | nil => rfl
        | cons child rest ihRest =>
          obtain ⟨hchild, hrest⟩ := forall_mem_cons.1 hbelow
          rw [mapM_cons, mapM_cons, hchild, ihRest hrest]
      exact congrArg (· >>= fun below => pure ((thing, above) :: below.flatten)) hmap

/-- A higher bound changes no walk from a shallow thing. -/
theorem Shallow.walk_deeper (h : view.Shallow thing) (hle : view.levels ≤ levels) :
    (view.deeper levels).walk thing = view.walk thing :=
  (walkFrom_deeper view levels levels thing []).trans (walkFrom_eq_of_le [] h hle)

/-- What a walk from a shallow thing meets is shallow, and so is all above it. -/
theorem Shallow.of_mem_walk (h : view.Shallow thing) {met : List (α × List α)}
    (hwalk : view.walk thing = .ok met) (hmem : (inner, path) ∈ met) :
    view.Shallow inner ∧ ∀ other ∈ path, view.Shallow other := by
  obtain ⟨between, rfl, -, hleads⟩ := (mem_walkFrom hwalk).1 hmem
  rw [append_nil]
  refine ⟨h.below hleads, fun other hother => ?_⟩
  obtain ⟨before, hbefore⟩ := hleads.of_mem hother
  exact h.below hbefore

/-- The siblings of a thing below a shallow one are shallow, if holes are. -/
theorem Shallow.siblings (h : view.Shallow thing)
    (hnull : ∀ thing, view.isNull thing = true → view.Shallow thing) {child : α} {items : List α}
    {place : Nat} (hsiblings : view.siblings? child thing = .ok (some (items, place))) :
    ∀ item ∈ items, view.Shallow item := by
  intro item hitem
  obtain ⟨held, hheld, hfound⟩ := bind_eq_ok.1 hsiblings
  obtain ⟨before, one, after, rfl, hone, -⟩ := findSome?_eq_some_iff.1 (Except.ok.inj hfound)
  obtain ⟨_, -, hone⟩ := Option.bind_eq_some_iff.1 hone
  obtain ⟨_, -, hone⟩ := Option.bind_eq_some_iff.1 hone
  cases hone
  cases hisNull : view.isNull item with
  | true => exact hnull item hisNull
  | false =>
    have hone : one ∈ before ++ one :: after := mem_append_right _ (.head _)
    have hmem : item ∈ ((before ++ one :: after).flatMap Held.items).filter
        fun child => !view.isNull child :=
      mem_filter.2 ⟨mem_flatMap.2 ⟨one, hone, hitem⟩, by rw [hisNull]; rfl⟩
    exact h.below (.down (bind_eq_ok.2 ⟨_, hheld, rfl⟩) hmem .refl)

end View

namespace Selector

variable {α : Type} {view : View α} {levels : Nat}

section
variable {selector : Selector} {thing : α} {above : List α} {subject : Option α}

/-- A single selector is asked. -/
theorem selectsSome_singleton : selectsSome view [selector] thing above subject =
    selector.selects view thing above subject := by
  rw [selectsSome]
  cases selector.selects view thing above subject with
  | error => rfl
  | ok answer => cases answer <;> rfl

theorem selectsAll_singleton : selectsAll view [selector] thing above subject =
    selector.selects view thing above subject := by
  rw [selectsAll]
  cases selector.selects view thing above subject with
  | error => rfl
  | ok answer => cases answer <;> rfl

/-- What has another kind is not selected. -/
theorem selects_other_kind {name : String} {parts : List Selector}
    (h : (view.kind? thing == some name) = false) :
    (allOf (.kind name :: parts)).selects view thing above subject = .ok false := by
  rw [selects, selectsAll, selects, h]
  rfl

end

/-- Tests that agree on items, and on what stands above them, agree on one of the items. -/
theorem anyWithRest_congr {p q : α → List α → Except AccessFault Bool} {items : List α}
    {good : α → Prop} (hitems : ∀ item ∈ items, good item)
    (h : ∀ item above, good item → (∀ other ∈ above, good other) → p item above = q item above) :
    anyWithRest p items = anyWithRest q items := by
  induction items with
  | nil => rfl
  | cons item rest ih =>
    obtain ⟨hitem, hrest⟩ := forall_mem_cons.1 hitems
    rw [anyWithRest, anyWithRest, h item rest hitem hrest, ih hrest]

/-- Tests that agree on items agree on one of them. -/
theorem anyM_congr {β : Type} {p q : β → Except AccessFault Bool} {items : List β}
    (h : ∀ item ∈ items, p item = q item) : items.anyM p = items.anyM q := by
  induction items with
  | nil => rfl
  | cons item rest ih =>
    obtain ⟨hitem, hrest⟩ := forall_mem_cons.1 h
    rw [List.anyM, List.anyM, hitem, ih hrest]

section

variable (hnull : ∀ thing, view.isNull thing = true → view.Shallow thing)

include hnull

/-- Tests that agree on shallow things agree on those to which a thing stands so. -/
theorem relates_congr {combinator : Combinator} {p q : α → List α → Except AccessFault Bool}
    {thing : α} {above : List α} (habove : ∀ other ∈ above, view.Shallow other)
    (h : ∀ item rest, view.Shallow item → (∀ other ∈ rest, view.Shallow other) →
      p item rest = q item rest) :
    relates (view.deeper levels) combinator p thing above =
      relates view combinator q thing above := by
  cases combinator with
  | descendant => exact anyWithRest_congr habove h
  | child =>
    cases above with
    | nil => rfl
    | cons parent rest =>
      obtain ⟨hparent, hrest⟩ := forall_mem_cons.1 habove
      exact h parent rest hparent hrest
  | next =>
    cases above with
    | nil => rfl
    | cons parent rest =>
      have hparent := habove parent (.head _)
      rw [relates, relates]
      change (view.siblings? thing parent >>= _) = view.siblings? thing parent >>= _
      cases hsiblings : view.siblings? thing parent with
      | error => rfl
      | ok found =>
        rcases found with - | ⟨items, - | place⟩
        · rfl
        · rfl
        · cases hitem : items[place]? with
          | none => simp only [bind, Except.bind, hitem]
          | some item =>
            have hgood := hparent.siblings hnull hsiblings item (mem_of_getElem? hitem)
            simp only [bind, Except.bind, hitem]
            exact h item _ hgood habove
  | later =>
    cases above with
    | nil => rfl
    | cons parent rest =>
      have hparent := habove parent (.head _)
      rw [relates, relates]
      change (view.siblings? thing parent >>= _) = view.siblings? thing parent >>= _
      cases hsiblings : view.siblings? thing parent with
      | error => rfl
      | ok found =>
        rcases found with - | ⟨items, place⟩
        · rfl
        · refine anyM_congr fun item hitem => ?_
          exact h item _ (hparent.siblings hnull hsiblings item (mem_of_mem_take hitem)) habove

variable (hle : view.levels ≤ levels)

include hle

-- the linter does not see that the calls within the block use both hypotheses
set_option linter.unusedSectionVars false

mutual

/-- A higher bound changes nothing for a selector that is asked about a shallow thing. -/
theorem selects_deeper :
    ∀ (selector : Selector) {thing : α} {above : List α} {subject : Option α},
      view.Shallow thing → (∀ other ∈ above, view.Shallow other) →
      selector.selects (view.deeper levels) thing above subject =
        selector.selects view thing above subject
  | .any, _, _, _, _, _ => rfl
  | .kind _, _, _, _, _, _ => rfl
  | .attributeIs path test, thing, _, _, _, _ => by
    rw [selects, selects, View.follow?_deeper]
    rfl
  | .allOf parts, _, _, _, hthing, habove => by
    rw [selects, selects]
    exact selectsAll_deeper parts hthing habove
  | .noneOf selectors, _, _, _, hthing, habove => by
    rw [selects, selects, selectsSome_deeper selectors hthing habove]
  | .oneOf selectors, _, _, _, hthing, habove => by
    rw [selects, selects]
    exact selectsSome_deeper selectors hthing habove
  | .having selectors, thing, above, _, hthing, habove => by
    rw [selects, selects, hthing.walk_deeper hle]
    cases hwalk : view.walk thing with
    | error => rfl
    | ok met =>
      refine anyM_congr fun (inner, between) hmem => ?_
      obtain ⟨hinner, hbetween⟩ := hthing.of_mem_walk hwalk (mem_of_mem_drop hmem)
      exact selectsSome_deeper selectors hinner
        (forall_mem_append.2 ⟨hbetween, habove⟩)
  | .edge _, _, _, _, _, _ => rfl
  | .scope, _, _, _, _, _ => rfl
  | .joined combinator left right, thing, above, subject, hthing, habove => by
    rw [selects, selects, selects_deeper right hthing habove]
    congr 1
    funext answer
    congr 1
    exact relates_congr hnull habove fun item rest hitem hrest =>
      selects_deeper left hitem hrest

/-- A higher bound changes nothing for selectors of which all are asked. -/
theorem selectsAll_deeper :
    ∀ (selectors : List Selector) {thing : α} {above : List α} {subject : Option α},
      view.Shallow thing → (∀ other ∈ above, view.Shallow other) →
      selectsAll (view.deeper levels) selectors thing above subject =
        selectsAll view selectors thing above subject
  | [], _, _, _, _, _ => rfl
  | selector :: rest, _, _, _, hthing, habove => by
    rw [selectsAll, selectsAll, selects_deeper selector hthing habove,
      selectsAll_deeper rest hthing habove]

/-- A higher bound changes nothing for selectors of which one is sought. -/
theorem selectsSome_deeper :
    ∀ (selectors : List Selector) {thing : α} {above : List α} {subject : Option α},
      view.Shallow thing → (∀ other ∈ above, view.Shallow other) →
      selectsSome (view.deeper levels) selectors thing above subject =
        selectsSome view selectors thing above subject
  | [], _, _, _, _, _ => rfl
  | selector :: rest, _, _, _, hthing, habove => by
    rw [selectsSome, selectsSome, selects_deeper selector hthing habove,
      selectsSome_deeper rest hthing habove]

end

end

end Selector

namespace View

variable {α : Type} {view : View α} {levels : Nat}

/-- Tests that agree on the entries collect the same, whatever the bound is. -/
theorem collect_congr {p q : α → List α → Except AccessFault Bool} :
    ∀ {entries : List (α × List α)} (found : List α),
      (∀ entry ∈ entries, p entry.1 entry.2 = q entry.1 entry.2) →
      (view.deeper levels).collect p found entries = view.collect q found entries
  | [], _, _ => rfl
  | (thing, above) :: rest, found, h => by
    obtain ⟨hfirst, hrest⟩ := forall_mem_cons.1 h
    rw [collect, collect, hfirst, collect_congr found hrest, collect_congr (thing :: found) hrest]
    rfl

/-- A higher bound changes no query from a shallow thing. -/
theorem query_deeper {root : α} (hnull : ∀ thing, view.isNull thing = true → view.Shallow thing)
    (hroot : view.Shallow root) (hle : view.levels ≤ levels) (text : String) :
    (view.deeper levels).query root text = view.query root text := by
  rw [query, query]
  congr 1
  funext selectors
  congr 1
  rw [select, select, hroot.walk_deeper hle]
  cases hwalk : view.walk root with
  | error => rfl
  | ok met =>
    change (view.deeper levels).collect _ [] met = view.collect _ [] met
    refine collect_congr [] fun (thing, above) hmem => ?_
    obtain ⟨hthing, habove⟩ := hroot.of_mem_walk hwalk hmem
    exact Selector.selectsSome_deeper hnull hle selectors hthing habove

end View

end DocTypes
