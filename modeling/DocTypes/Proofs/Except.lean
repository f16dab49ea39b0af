import Mathlib.Data.List.Forall2

/-!
# Steps that may fail

How computations in `Except` are taken apart: a chain of two succeeds if both do, and mapping a step
over a list succeeds if it does on every item, as it does in `Option`. What holds of two lists item
by item is stated with `List.Forall₂`.
-/

namespace DocTypes

variable {ε α β : Type}
variable {second : α → Except ε β} {items : List α} {outcome : Except ε α} {rel : α → β → Prop}

/-- A chain succeeds if its first step does, and the second one on what the first gives. -/
theorem bind_eq_ok {first : Except ε α} {result : β} :
    (first >>= second) = .ok result ↔ ∃ value, first = .ok value ∧ second value = .ok result := by
  cases first with
  | error fault => exact ⟨nofun, fun ⟨_, h, _⟩ => nomatch h⟩
  | ok value =>
    constructor
    · exact fun h => ⟨value, rfl, h⟩
    · rintro ⟨_, h, h'⟩
      cases h
      exact h'

/-- A chain fails if its first step does, or the second one on what the first gives. -/
theorem of_bind_eq_error {first : Except ε α} {fault : ε} (h : (first >>= second) = .error fault) :
    first = .error fault ∨ ∃ value, first = .ok value ∧ second value = .error fault := by
  cases first with
  | error => exact .inl (congrArg _ (Except.error.inj h))
  | ok value => exact .inr ⟨value, rfl, h⟩

/-- A step mapped over a list succeeds if it does on every item. -/
theorem mapM_eq_ok {step : α → Except ε β} {results : List β} :
    items.mapM step = .ok results ↔
      List.Forall₂ (fun item result => step item = .ok result) items results := by
  induction items generalizing results with
  | nil =>
    rw [List.mapM_nil, List.forall₂_nil_left_iff]
    exact ⟨fun h => by cases h; rfl, fun h => by rw [h]; rfl⟩
  | cons item rest ih =>
    rw [List.mapM_cons, List.forall₂_cons_left_iff]
    constructor
    · intro h
      obtain ⟨result, hresult, h⟩ := bind_eq_ok.1 h
      obtain ⟨later, hlater, h⟩ := bind_eq_ok.1 h
      cases h
      exact ⟨result, later, hresult, ih.1 hlater, rfl⟩
    · rintro ⟨result, later, hresult, hlater, rfl⟩
      rw [hresult]
      change (rest.mapM step >>= fun later => pure (result :: later)) = _
      rw [ih.2 hlater]
      rfl

/-- A step mapped over a list gives the results of all items, one by one. -/
theorem mapM_eq_some {step : α → Option β} {results : List β} :
    items.mapM step = some results ↔ results.map some = items.map step := by
  induction items generalizing results with
  | nil =>
    rw [List.mapM_nil, List.map_nil, List.map_eq_nil_iff]
    exact ⟨fun h => by cases h; rfl, fun h => by rw [h]; rfl⟩
  | cons item rest ih =>
    rw [List.mapM_cons]
    cases results with
    | nil => cases step item <;> cases rest.mapM step <;> simp
    | cons result later =>
      rw [List.map_cons, List.map_cons, List.cons.injEq, ← ih]
      cases step item <;> cases rest.mapM step <;> simp [eq_comm]

/-- A test that holds of items one by one holds of one of them, or of none. -/
theorem anyM_eq_ok {p : α → Except ε Bool} {q : α → Bool} :
    ∀ {items : List α}, (∀ item ∈ items, p item = .ok (q item)) →
      items.anyM p = .ok (items.any q)
  | [], _ => rfl
  | item :: rest, h => by
    obtain ⟨hitem, hrest⟩ := List.forall_mem_cons.1 h
    rw [List.anyM, hitem, List.any_cons]
    change (match q item with
      | true => Except.ok true
      | false => rest.anyM p) = _
    cases q item with
    | true => rfl
    | false => exact anyM_eq_ok hrest

/-- A change of faults does not change a success. -/
theorem mapError_eq_ok {ε' : Type} {change : ε → ε'} {value : α} :
    outcome.mapError change = .ok value ↔ outcome = .ok value := by
  cases outcome with
  | error fault => exact ⟨nofun, nofun⟩
  | ok value' => exact ⟨fun h => by cases h; rfl, fun h => by cases h; rfl⟩

/-- A change of faults changes the fault. -/
theorem of_mapError_eq_error {ε' : Type} {change : ε → ε'} {fault : ε'}
    (h : outcome.mapError change = .error fault) :
    ∃ before, outcome = .error before ∧ change before = fault := by
  cases outcome with
  | error before => exact ⟨before, rfl, Except.error.inj h⟩
  | ok => cases h

/-- A success of whose value a test holds. -/
theorem exists_eq_ok_of_any {p : α → Bool} (h : outcome.toOption.any p = true) :
    ∃ value, outcome = .ok value ∧ p value = true := by
  cases outcome with
  | error fault => cases h
  | ok value => exact ⟨value, rfl, h⟩

/-- What is related to some list has something related to it in the list. -/
theorem exists_mem_of_forall₂ {others : List β} (h : List.Forall₂ rel items others) {other : β}
    (hmem : other ∈ others) :
    ∃ item ∈ items, rel item other := by
  induction h with
  | nil => cases hmem
  | @cons item _ _ _ hrel _ ih =>
    rcases List.mem_cons.1 hmem with rfl | hmem
    · exact ⟨item, .head _, hrel⟩
    · obtain ⟨item', hitem', hrel'⟩ := ih hmem
      exact ⟨item', .tail _ hitem', hrel'⟩

/-- What is in a list has something that it is related to. -/
theorem exists_mem_of_forall₂_left {others : List β} (h : List.Forall₂ rel items others) {item : α}
    (hmem : item ∈ items) :
    ∃ other ∈ others, rel item other := by
  obtain ⟨other, hother, hrel⟩ := exists_mem_of_forall₂ h.flip hmem
  exact ⟨other, hother, hrel⟩

end DocTypes
