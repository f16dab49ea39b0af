import DocTypes.Proofs.TypeExpr.Arena

/-!
# Types that are stored while they are read

A reader that stores types does what the reader of trees does, production by production (`Mirrors`).
If the text is read, then the arena is as if the tree had been stored at once. If it is refused,
then the types are in the arena that were complete by then (`store_eq`).
-/

namespace DocTypes

open Arena TypeReader

namespace Arena

variable {arena arena' arena'' : Arena}

/-- Types were stored behind what the arena held. -/
def Fed (arena arena' : Arena) : Prop :=
  ∃ types, arena' = (insertAll types arena).2

theorem insertAll_append (types types' : List TypeExpr) (arena : Arena) :
    insertAll (types ++ types') arena =
      ((insertAll types arena).1 ++ (insertAll types' (insertAll types arena).2).1,
        (insertAll types' (insertAll types arena).2).2) := by
  induction types generalizing arena with
  | nil => rfl
  | cons type rest ih =>
    have hcons : ∀ rest, insertAll (type :: rest) arena = ((insert type arena).1 ::
        (insertAll rest (insert type arena).2).1, (insertAll rest (insert type arena).2).2) :=
      fun _ => rfl
    rw [List.cons_append, hcons, ih, hcons]
    rfl

theorem Fed.refl (arena : Arena) : arena.Fed arena :=
  ⟨[], rfl⟩

theorem Fed.trans (h : arena.Fed arena') (h' : arena'.Fed arena'') : arena.Fed arena'' := by
  obtain ⟨types, rfl⟩ := h
  obtain ⟨types', rfl⟩ := h'
  exact ⟨types ++ types', by rw [insertAll_append]⟩

theorem fed_insert (type : TypeExpr) (arena : Arena) : arena.Fed (insert type arena).2 :=
  ⟨[type], rfl⟩

end Arena

namespace ArenaReader

variable {α β γ δ : Type}

/-- How what was read is stored. -/
structure Store (α β : Type) where
  run : α → StateM Arena β
  feeds : ∀ (value : α) (arena : Arena), arena.Fed (run value arena).2

namespace Store

/-- What holds no type is not stored. -/
def plain : Store α α := ⟨pure, fun _ => .refl⟩

/-- A type is stored. -/
def type : Store TypeExpr Nat := ⟨insert, fed_insert⟩

/-- Types are stored one after the other. -/
def types : Store (List TypeExpr) (List Nat) := ⟨insertAll, fun types _ => ⟨types, rfl⟩⟩

/-- Stores items one after the other. -/
def runAll (store : Store α β) : List α → StateM Arena (List β)
  | [] => return []
  | item :: rest => return (← store.run item) :: (← runAll store rest)

/-- Items are stored one after the other. -/
def all (store : Store α β) : Store (List α) (List β) where
  run := store.runAll
  feeds items := by
    induction items with
    | nil => exact .refl
    | cons item rest ih => exact fun arena => (store.feeds item arena).trans (ih _)

/-- An item is stored if it is there. -/
def option (store : Store α β) : Store (Option α) (Option β) where
  run
    | none => return none
    | some item => return some (← store.run item)
  feeds
    | none => .refl
    | some item => store.feeds item

/-- What is stored with a mark. -/
def marked (mark : Type) (store : Store α β) : Store (α × mark) (β × mark) where
  run item := return (← store.run item.1, item.2)
  feeds item := store.feeds item.1

/-- What takes the place of a type is stored instead of it. -/
def next (type : TypeExpr) : Store (Option TypeExpr) (Option Nat) where
  run
    | none => do
      let _ ← insert type
      return none
    | some next => return some (← insert next)
  feeds
    | none => fed_insert type
    | some next => fed_insert next

theorem all_type : type.all = types := by
  have hrun : type.runAll = insertAll := funext fun types => by
    induction types with
    | nil => rfl
    | cons type rest ih =>
      rw [runAll, ih, insertAll]
      rfl
  simp only [all, types, hrun]

theorem all_plain : (plain : Store α α).all = plain := by
  have hrun : (plain : Store α α).runAll = pure := funext fun items => by
    induction items with
    | nil => rfl
    | cons item rest ih =>
      rw [runAll, ih]
      rfl
  simp only [all, hrun]
  rfl

/-- The types of marked items are stored as the items are. -/
theorem runAll_marked {mark : Type} (items : List (TypeExpr × mark)) (arena : Arena) :
    insertAll (items.map (·.1)) arena = (((type.marked mark).runAll items arena).1.map (·.1),
      ((type.marked mark).runAll items arena).2) := by
  induction items generalizing arena with
  | nil => rfl
  | cons item rest ih =>
    change ((insert item.1 arena).1 :: (insertAll (rest.map (·.1)) _).1, (insertAll _ _).2) = _
    rw [ih]
    rfl

end Store

/-- What a reader gives, and what one gives that stores types since `start`. If a tree was read,
then the arena is `start` with it stored. If not, then the types are stored that were complete. -/
inductive Kept (store : Store γ δ) (start : Arena) :
    Except TypeFault (γ × TypeCursor) → Except TypeFault (δ × TypeCursor) × Arena → Prop
  | ok {value : γ} {later : TypeCursor} : Kept store start (.ok (value, later))
      (.ok ((store.run value start).1, later), (store.run value start).2)
  | error {fault : TypeFault} {arena' : Arena} (fed : start.Fed arena') :
    Kept store start (.error fault) (.error fault, arena')

/-- From an arena into which types were stored since `start`, the second reader does what the first
does, and stores what that gives. -/
def Keeps (store : Store γ δ) (start : Arena) (reader : TypeReader γ) (storing : ArenaReader δ)
    (cursor : TypeCursor) (arena : Arena) : Prop :=
  start.Fed arena → Kept store start (reader cursor) (storing cursor arena)

/-- From every arena, the second reader does what the first does and stores what that gives. -/
def Mirrors (store : Store γ δ) (reader : TypeReader γ) (storing : ArenaReader δ) : Prop :=
  ∀ {cursor arena}, Keeps store arena reader storing cursor arena

theorem reader_bind (first : TypeReader α) (next : α → TypeReader γ) (cursor : TypeCursor) :
    (first >>= next) cursor = match first cursor with
      | .ok (value, later) => next value later
      | .error fault => .error fault := by
  change (first cursor >>= fun r => next r.1 r.2) = _
  cases first cursor <;> rfl

theorem storing_bind (first : ArenaReader β) (next : β → ArenaReader δ) (cursor : TypeCursor)
    (arena : Arena) : (first >>= next) cursor arena = match first cursor arena with
      | (.ok (value, later), arena') => next value later arena'
      | (.error fault, arena') => (.error fault, arena') := by
  change ExceptT.bindCont (fun r => next r.1 r.2) (first cursor arena).1 (first cursor arena).2 = _
  generalize first cursor arena = outcome
  obtain ⟨_ | _, _⟩ := outcome <;> rfl

/-! ## Rules -/

section
variable {store : Store γ δ} {start start' arena : Arena} {cursor : TypeCursor}
  {first : TypeReader α} {next : α → TypeReader γ} {value : γ}

theorem keeps_pure {kept : δ} (h : store.run value start = (kept, arena)) :
    Keeps store start (pure value) (pure kept) cursor arena := by
  intro _
  have hok : Kept store start (.ok (value, cursor)) _ := .ok
  rw [h] at hok
  exact hok

/-- A layer is stored after its parts. -/
theorem keeps_make {shape : TypeShape TypeExpr} {shape' : TypeShape Nat}
    (h : insert shape.whole start = add shape' arena) :
    Keeps .type start (TypeMaker.make shape) (TypeMaker.make shape') cursor arena := by
  intro _
  have hok : Kept .type start (.ok (shape.whole, cursor))
    (.ok ((insert shape.whole start).1, cursor),
    (insert shape.whole start).2) := .ok
  rw [h] at hok
  exact hok

theorem keeps_fail {cause : TypeCause} :
    Keeps store start (fail cause) (fail cause) cursor arena :=
  fun hfed => .error hfed

theorem keeps_fail_bind {cause : TypeCause} {next' : β → ArenaReader δ} :
    Keeps store start (fail cause >>= next) (fail cause >>= next') cursor arena :=
  fun hfed => .error hfed

theorem keeps_get {next : TypeCursor → TypeReader γ} {next' : TypeCursor → ArenaReader δ}
    (h : Keeps store start (next cursor) (next' cursor) cursor arena) :
    Keeps store start (get >>= next) (get >>= next') cursor arena :=
  h

theorem keeps_ite {p : Prop} [Decidable p] {yes no : TypeReader γ} {yes' no' : ArenaReader δ}
    (hyes : p → Keeps store start yes yes' cursor arena)
    (hno : ¬p → Keeps store start no no' cursor arena) :
    Keeps store start (if p then yes else no) (if p then yes' else no') cursor arena := by
  by_cases h : p
  · rw [if_pos h, if_pos h]
    exact hyes h
  · rw [if_neg h, if_neg h]
    exact hno h

theorem Keeps.bind {store' : Store α β} {first' : ArenaReader β} {next' : β → ArenaReader δ}
    (hfirst : Keeps store' start' first first' cursor arena) (hstart : start.Fed start')
    (harena : start'.Fed arena)
    (h : ∀ value later, Keeps store start (next value) (next' (store'.run value start').1) later
      (store'.run value start').2) :
    Kept store start ((first >>= next) cursor) ((first' >>= next') cursor arena) := by
  have hhere := hfirst harena
  rw [reader_bind, storing_bind]
  generalize first cursor = outcome at hhere
  generalize first' cursor arena = outcome' at hhere
  cases hhere with
  | error hfed => exact .error (hstart.trans hfed)
  | @ok value later => exact h value later (hstart.trans (store'.feeds value start'))

/-- A part is read and stored. -/
theorem keeps_part {store' : Store α β} {first' : ArenaReader β} {next' : β → ArenaReader δ}
    (hfirst : Mirrors store' first first')
    (h : ∀ value later, Keeps store start (next value) (next' (store'.run value arena).1) later
      (store'.run value arena).2) :
    Keeps store start (first >>= next) (first' >>= next') cursor arena :=
  fun hfed => hfirst.bind hfed (.refl arena) h

/-- What is read holds no type. -/
theorem keeps_token {first' : ArenaReader α} {next' : α → ArenaReader δ}
    (hfirst : Mirrors .plain first first')
    (h : ∀ value later, Keeps store start (next value) (next' value) later arena) :
    Keeps store start (first >>= next) (first' >>= next') cursor arena :=
  keeps_part hfirst h

/-- A layer is stored after its parts, and something follows. -/
theorem keeps_make_bind {shape : TypeShape TypeExpr} {shape' : TypeShape Nat}
    {next : TypeExpr → TypeReader γ} {next' : Nat → ArenaReader δ}
    (h : insert shape.whole start = add shape' arena)
    (hnext : Keeps store start (next shape.whole) (next' (insert shape.whole start).1) cursor
      (insert shape.whole start).2) :
    Keeps store start (TypeMaker.make shape >>= next) (TypeMaker.make shape' >>= next') cursor
      arena := by
  intro _
  have hlayer := hnext (fed_insert _ start)
  rw [h] at hlayer
  exact hlayer

end

/-! ## Tokens -/

theorem mirrors_peek (ahead : Nat) : Mirrors .plain (peek ahead) (peek ahead) :=
  fun _ => .ok

theorem mirrors_at? (text : String) : Mirrors .plain (at? text) (at? text) :=
  fun _ => .ok

theorem mirrors_ahead? (ahead : Nat) (text : String) :
    Mirrors .plain (ahead? ahead text) (ahead? ahead text) :=
  fun _ => .ok

theorem mirrors_terminated : Mirrors .plain terminated terminated :=
  fun _ => .ok

theorem mirrors_advance : Mirrors .plain advance advance := by
  intro cursor arena
  refine keeps_get ?_
  cases cursor.pending with
  | nil => exact keeps_fail
  | cons => exact fun _ => .ok

theorem mirrors_eat (text : String) : Mirrors .plain (eat text) (eat text) := by
  refine keeps_part (mirrors_at? text) fun _ _ => keeps_ite (fun _ => ?_) fun _ => keeps_pure rfl
  exact keeps_token mirrors_advance fun _ _ => keeps_pure rfl

theorem mirrors_expect (text : String) : Mirrors .plain (expect text) (expect text) := by
  refine keeps_token (mirrors_eat text) fun _ _ => keeps_ite (fun _ => ?_) fun _ => keeps_pure rfl
  exact keeps_token (mirrors_peek 0) fun _ _ => keeps_fail

/-! ## Repetition -/

theorem mirrors_many {store : Store α β} {round : TypeReader (Option (α × Bool))}
    {round' : ArenaReader (Option (β × Bool))}
    (h : Mirrors (store.marked Bool).option round round') :
    Mirrors store.all (many round) (many round') := by
  have hrounds : ∀ bound, Mirrors store.all (rounds TypeCursor.left (fail .stalled) round bound)
      (rounds TypeCursor.left (fail .stalled) round' bound) := by
    intro bound
    induction bound with
    | zero => exact keeps_fail
    | succ bound ih =>
      refine keeps_get (keeps_part h fun item _ => ?_)
      match item with
      | none => exact keeps_pure rfl
      | some (item, false) => exact keeps_pure rfl
      | some (item, true) =>
        refine keeps_get (keeps_ite (fun _ => ?_) fun _ => keeps_fail)
        exact keeps_part ih fun items _ => keeps_pure rfl
  exact fun {cursor _} => keeps_get (hrounds (cursor.left + 1))

theorem mirrors_types {round : TypeReader (Option (TypeExpr × Bool))}
    {round' : ArenaReader (Option (Nat × Bool))}
    (h : Mirrors (Store.type.marked Bool).option round round') :
    Mirrors .types (many round) (many round') :=
  Store.all_type ▸ mirrors_many h

/-- A type whose place another takes in each step is not stored beside that. -/
theorem keeps_stepping {step : TypeExpr → TypeReader (Option TypeExpr)}
    {step' : Nat → ArenaReader (Option Nat)}
    (h : ∀ type {start cursor}, Keeps (.next type) start (step type) (step' (insert type start).1)
      cursor (insert type start).2) (type : TypeExpr) {start : Arena} {cursor : TypeCursor} :
    Keeps .type start (stepping step type) (stepping step' (insert type start).1) cursor
      (insert type start).2 := by
  have hsteps : ∀ bound type {cursor}, Keeps .type start
      (steps TypeCursor.left (fail .stalled) step bound type)
      (steps TypeCursor.left (fail .stalled) step' bound (insert type start).1) cursor
      (insert type start).2 := by
    intro bound
    induction bound with
    | zero => exact fun _ => keeps_fail
    | succ bound ih =>
      intro type cursor
      refine keeps_get fun hfed => (h type).bind (.refl start) hfed fun next? later => ?_
      match next? with
      | none => exact keeps_pure rfl
      | some next => exact keeps_get (keeps_ite (fun _ => ih next) fun _ => keeps_fail)
  exact keeps_get (hsteps _ type)

/-! ## Productions -/

theorem mirrors_fieldName : Mirrors .plain fieldName fieldName := by
  refine keeps_token (mirrors_peek 0) fun token _ => ?_
  cases token.kind with
  | string | name | number => exact keeps_token mirrors_advance fun _ _ => keeps_pure rfl
  | punctuator | endOfInput => exact keeps_fail

theorem mirrors_dottedRest : Mirrors .plain dottedRest dottedRest := by
  refine Store.all_plain ▸ mirrors_many ?_
  refine keeps_part (mirrors_at? _) fun _ _ => keeps_token (mirrors_peek 1) fun _ _ =>
    keeps_ite (fun _ => ?_) fun _ => keeps_pure rfl
  refine keeps_token mirrors_advance fun _ _ => ?_
  exact keeps_token mirrors_advance fun _ _ => keeps_pure rfl

theorem mirrors_separatedBy (sign : String) {item : TypeReader TypeExpr} {item' : ArenaReader Nat}
    (h : Mirrors .type item item') :
    Mirrors .types (separatedBy sign item) (separatedBy sign item') := by
  refine keeps_part h fun first _ => keeps_part (mirrors_types ?_) fun later _ => keeps_pure rfl
  refine keeps_token (mirrors_eat sign) fun _ _ => keeps_ite (fun _ => ?_) fun _ => keeps_pure rfl
  exact keeps_part h fun next _ => keeps_pure rfl

section
variable {recur : TypeGoal → TypeReader TypeExpr} {recur' : TypeGoal → ArenaReader Nat}
  (hr : ∀ goal, Mirrors .type (recur goal) (recur' goal))
include hr

theorem mirrors_listUpTo (close : String) :
    Mirrors .types (listUpTo recur close) (listUpTo recur' close) := by
  refine keeps_token (mirrors_eat close) fun _ _ => keeps_ite (fun _ => keeps_pure rfl) fun _ => ?_
  refine keeps_part (hr .type) fun first _ => keeps_part (mirrors_types ?_) fun later _ =>
    keeps_token (mirrors_expect close) fun _ _ => keeps_pure rfl
  refine keeps_token (mirrors_eat _) fun _ _ => keeps_ite (fun _ => keeps_pure rfl) fun _ => ?_
  refine keeps_part (mirrors_at? _) fun _ _ => keeps_ite (fun _ => keeps_pure rfl) fun _ => ?_
  exact keeps_part (hr .type) fun item _ => keeps_pure rfl

theorem mirrors_annotation? :
    Mirrors Store.type.option (annotation? recur) (annotation? recur') := by
  refine keeps_token (mirrors_eat _) fun _ _ => keeps_ite (fun _ => ?_) fun _ => keeps_pure rfl
  exact keeps_part (hr .type) fun type _ => keeps_pure rfl

theorem mirrors_arrowType (constructs : Bool) :
    Mirrors .type (arrowType recur constructs) (arrowType recur' constructs) := by
  refine keeps_token (mirrors_expect _) fun _ _ =>
    keeps_part (mirrors_types ?_) fun parameters _ => ?_
  · refine keeps_part (mirrors_at? _) fun _ _ => keeps_ite (fun _ => keeps_pure rfl) fun _ => ?_
    refine keeps_token (mirrors_eat _) fun variadic _ => keeps_token (mirrors_peek 0) fun _ _ =>
      keeps_ite (fun _ => keeps_fail_bind) fun _ => keeps_token mirrors_advance fun _ _ => ?_
    refine keeps_token (mirrors_eat _) fun optional _ => keeps_part (mirrors_annotation? hr)
      fun type _ => keeps_make_bind ?_ (keeps_token (mirrors_eat _) fun _ _ => keeps_pure rfl)
    cases type <;> rfl
  · refine keeps_token (mirrors_expect _) fun _ _ => keeps_token (mirrors_expect _) fun _ _ => ?_
    exact keeps_part (hr .type) fun result _ => keeps_make rfl

theorem mirrors_functionType : Mirrors .type (functionType recur) (functionType recur') := by
  refine keeps_token mirrors_advance fun _ _ => keeps_token (mirrors_expect _) fun _ _ =>
    keeps_part (mirrors_types ?_) fun parameters _ => keeps_token (mirrors_expect _) fun _ _ => ?_
  · refine keeps_part (mirrors_at? _) fun _ _ => keeps_ite (fun _ => keeps_pure rfl) fun _ => ?_
    refine keeps_token (mirrors_peek 0) fun word _ => keeps_part (show Mirrors .type _ _ from ?_)
      fun parameter _ => keeps_token (mirrors_eat _) fun _ _ => keeps_pure rfl
    refine keeps_part (mirrors_ahead? _ _) fun _ _ => keeps_ite (fun _ => ?_) fun _ => hr .type
    refine keeps_token mirrors_advance fun _ _ => keeps_token mirrors_advance fun _ _ => ?_
    exact keeps_part (hr .type) fun type _ => keeps_make rfl
  · refine keeps_part (show Mirrors Store.type.option _ _ from ?_) fun result _ => keeps_make ?_
    · refine keeps_token (mirrors_eat _) fun _ _ => keeps_ite (fun _ => ?_) fun _ => keeps_pure rfl
      exact keeps_part (hr .operand) fun type _ => keeps_pure rfl
    · cases result <;> rfl

theorem mirrors_objectType : Mirrors .type (objectType recur) (objectType recur') := by
  refine keeps_token (mirrors_expect _) fun _ _ => keeps_part
    (show Mirrors (Store.type.marked (Option String)).all _ _ from mirrors_many ?_)
    fun fields _ => ?_
  · refine keeps_part (mirrors_at? _) fun _ _ => keeps_ite (fun _ => keeps_pure rfl) fun _ => ?_
    refine keeps_token (show Mirrors .plain _ _ from ?_) fun readonly _ =>
      keeps_token mirrors_fieldName fun ⟨name, quote⟩ _ =>
        keeps_token (mirrors_eat _) fun optional _ =>
        keeps_part (mirrors_annotation? hr) fun type _ => keeps_make_bind ?_ ?_
    · refine keeps_token (mirrors_peek 1) fun _ _ => keeps_part (mirrors_at? _) fun _ _ =>
        keeps_ite (fun _ => ?_) fun _ => keeps_pure rfl
      exact keeps_token mirrors_advance fun _ _ => keeps_pure rfl
    · cases type <;> rfl
    · refine keeps_part (mirrors_at? _) fun _ _ => keeps_part (mirrors_at? _) fun _ _ => ?_
      refine keeps_ite (fun _ => ?_) fun _ => keeps_pure rfl
      exact keeps_token mirrors_advance fun separator _ => keeps_pure rfl
  · refine keeps_token (mirrors_expect _) fun _ _ => keeps_make ?_
    change add (.object (insertAll (fields.map (·.1)) _).1 _) (insertAll (fields.map (·.1)) _).2 = _
    rw [Store.runAll_marked]
    cases fields <;> rfl

theorem mirrors_primary : Mirrors .type (primary recur) (primary recur') := by
  refine keeps_token (mirrors_peek 0) fun token _ => ?_
  cases token.kind with
  | string | number =>
    refine keeps_token mirrors_advance fun _ _ => ?_
    exact keeps_make rfl
  | name | punctuator | endOfInput =>
    refine keeps_ite (fun _ => keeps_token mirrors_advance fun _ _ => ?_) fun _ => ?_
    · exact keeps_make rfl
    refine keeps_ite (fun _ => keeps_get (keeps_ite (fun _ => mirrors_arrowType hr false)
      fun _ => ?_)) fun _ => ?_
    · refine keeps_token mirrors_advance fun _ _ => keeps_part (hr .type) fun inner _ => ?_
      exact keeps_token (mirrors_expect _) fun _ _ => keeps_make rfl
    refine keeps_ite (fun _ => mirrors_objectType hr) fun _ => keeps_ite (fun _ => ?_) fun _ => ?_
    · refine keeps_token mirrors_advance fun _ _ => ?_
      exact keeps_part (mirrors_listUpTo hr "]") fun types _ => keeps_make rfl
    refine keeps_part (mirrors_ahead? _ _) fun _ _ => keeps_ite (fun _ => ?_) fun _ => ?_
    · exact keeps_token mirrors_advance fun _ _ => mirrors_arrowType hr true
    refine keeps_part (mirrors_ahead? _ _) fun _ _ =>
      keeps_ite (fun _ => mirrors_functionType hr) fun _ => ?_
    first
    | exact keeps_fail
    | exact keeps_token mirrors_advance fun _ _ => keeps_token mirrors_dottedRest fun _ _ =>
        keeps_make rfl

theorem keeps_suffix (type : TypeExpr) {start : Arena} {cursor : TypeCursor} :
    Keeps (.next type) start (suffix recur type) (suffix recur' (insert type start).1) cursor
      (insert type start).2 := by
  have hgeneric : ∀ dotted {cursor}, Keeps (.next type) start
      (do return some (← TypeMaker.make (.generic type (← listUpTo recur ">") dotted)))
      (do
        return some (← TypeMaker.make
          (.generic (insert type start).1 (← listUpTo recur' ">") dotted)))
      cursor (insert type start).2 :=
    fun dotted => keeps_part (mirrors_listUpTo hr ">") fun arguments _ =>
      keeps_make_bind rfl (keeps_pure rfl)
  refine keeps_part (mirrors_at? _) fun _ _ => keeps_part (mirrors_ahead? _ _) fun _ _ =>
    keeps_ite (fun _ => ?_) fun _ => ?_
  · refine keeps_token mirrors_advance fun _ _ => keeps_token mirrors_advance fun _ _ => ?_
    exact keeps_make_bind rfl (keeps_pure rfl)
  refine keeps_token (mirrors_eat _) fun _ _ => keeps_ite (fun _ => hgeneric false) fun _ => ?_
  refine keeps_part (mirrors_at? _) fun _ _ => keeps_part (mirrors_ahead? _ _) fun _ _ =>
    keeps_ite (fun _ => ?_) fun _ => ?_
  · refine keeps_token mirrors_advance fun _ _ => ?_
    exact keeps_token mirrors_advance fun _ _ => hgeneric true
  refine keeps_part (mirrors_at? _) fun _ _ => keeps_token mirrors_terminated fun _ _ =>
    keeps_ite (fun _ => ?_) fun _ => ?_
  · exact keeps_token mirrors_advance fun _ _ => keeps_make_bind rfl (keeps_pure rfl)
  refine keeps_token (mirrors_eat _) fun _ _ => keeps_ite (fun _ => ?_) fun _ => ?_
  · exact keeps_make_bind rfl (keeps_pure rfl)
  refine keeps_token (mirrors_eat _) fun _ _ => keeps_ite (fun _ => ?_) fun _ => keeps_pure rfl
  exact keeps_make_bind rfl (keeps_pure rfl)

theorem mirrors_postfixed : Mirrors .type (postfixed recur) (postfixed recur') :=
  keeps_part (mirrors_primary hr) fun type _ => keeps_stepping (keeps_suffix hr) type

theorem mirrors_operand : Mirrors .type (operand recur) (operand recur') := by
  refine keeps_part (mirrors_at? _) fun _ _ => keeps_ite (fun _ => ?_) fun _ => ?_
  · refine keeps_token mirrors_terminated fun _ _ => keeps_token mirrors_advance fun _ _ =>
      keeps_ite (fun _ => keeps_make rfl) fun _ => ?_
    exact keeps_part (hr .operand) fun type _ => keeps_make rfl
  refine keeps_token (mirrors_eat _) fun _ _ => keeps_ite (fun _ => ?_) fun _ => ?_
  · exact keeps_part (hr .operand) fun type _ => keeps_make rfl
  refine keeps_part (mirrors_at? _) fun _ _ => keeps_ite (fun _ => ?_) fun _ => ?_
  · refine keeps_token mirrors_terminated fun _ _ => keeps_token mirrors_advance fun _ _ =>
      keeps_ite (fun _ => keeps_make rfl) fun _ => ?_
    exact keeps_part (hr .operand) fun type _ => keeps_make rfl
  refine keeps_part (mirrors_at? _) fun _ _ => keeps_token (mirrors_peek 1) fun _ _ =>
    keeps_ite (fun _ => ?_) fun _ => ?_
  · refine keeps_token mirrors_advance fun _ _ => ?_
    exact keeps_part (mirrors_postfixed hr) fun type _ => keeps_make rfl
  refine keeps_token (mirrors_eat _) fun _ _ => keeps_ite (fun _ => ?_) fun _ =>
    mirrors_postfixed hr
  exact keeps_part (hr .operand) fun type _ => keeps_make rfl

theorem mirrors_conjunction : Mirrors .type (conjunction recur) (conjunction recur') := by
  refine keeps_part (mirrors_separatedBy "&" (mirrors_operand hr)) fun types _ => ?_
  match types with
  | [single] => exact keeps_pure rfl
  | [] => exact keeps_make rfl
  | _ :: _ :: _ => exact keeps_make rfl

theorem mirrors_wholeType : Mirrors .type (wholeType recur) (wholeType recur') := by
  refine keeps_token (mirrors_eat _) fun _ _ => ?_
  refine keeps_part (mirrors_separatedBy "|" (mirrors_conjunction hr)) fun types _ => ?_
  match types with
  | [single] => exact keeps_pure rfl
  | [] => exact keeps_make rfl
  | _ :: _ :: _ => exact keeps_make rfl

end

theorem mirrors_level : ∀ levels goal,
    Mirrors .type (level levels goal : TypeReader TypeExpr) (level levels goal : ArenaReader Nat)
  | 0, _ => keeps_fail
  | levels + 1, .type => mirrors_wholeType (mirrors_level levels)
  | levels + 1, .operand => mirrors_operand (mirrors_level levels)

theorem mirrors_root (levels : Nat) :
    Mirrors .type (root levels : TypeReader TypeExpr) (root levels : ArenaReader Nat) := by
  refine keeps_token (mirrors_peek 0) fun _ _ => keeps_ite (fun _ => keeps_fail_bind) fun _ => ?_
  refine keeps_part (mirrors_level levels .type) fun type _ =>
    keeps_token (mirrors_peek 0) fun _ _ => ?_
  exact keeps_ite (fun _ => keeps_fail_bind) fun _ => keeps_pure rfl

end ArenaReader

namespace Arena

/-- A type that is read is stored. If the text is refused, then the types that were complete are in
the arena. -/
theorem store_eq (arena : Arena) (text : List Char) (line : Nat) :
    match TypeExpr.read text line with
    | .ok type => store text line arena = (.ok (insert type arena).1, (insert type arena).2)
    | .error error => ∃ types, store text line arena =
        (.error error, (insertAll types arena).2) := by
  rw [TypeExpr.read, store]
  cases TypeToken.lex text with
  | error error => exact ⟨[], rfl⟩
  | ok tokens =>
    have hkept := @ArenaReader.mirrors_root (tokens.length + 1)
      ⟨tokens, ⟨.endOfInput, "", text.length⟩⟩ arena (.refl arena)
    dsimp only [bind, Except.bind, StateT.run'_eq, StateT.run]
    generalize (root (tokens.length + 1) : TypeReader TypeExpr) _ = outcome at hkept ⊢
    generalize (root (tokens.length + 1) : ArenaReader Nat) _ arena = outcome' at hkept ⊢
    cases hkept with
    | ok => rfl
    | @error _ _ hfed =>
      obtain ⟨types, rfl⟩ := hfed
      exact ⟨types, rfl⟩

/-- A type that is read into an arena is read and stored. -/
theorem readInto_eq (arena : Arena) (text : List Char) (line : Nat) :
    arena.readInto text line = do return insert (← TypeExpr.read text line) arena := by
  have hstore := store_eq arena text line
  rw [readInto]
  cases hread : TypeExpr.read text line with
  | ok type =>
    rw [hread] at hstore
    rw [hstore]
    rfl
  | error error =>
    rw [hread] at hstore
    obtain ⟨types, hstore⟩ := hstore
    rw [hstore]
    rfl

end Arena

end DocTypes
