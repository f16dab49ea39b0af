import Mathlib.Data.List.Basic
import Mathlib.Logic.Relation
import DocTypes.TypeExpr.Basic

/-!
# Expanding named types

Names may stand for types (`Definitions`), and the types they stand for may hold such names again.
`Expands` says what a type comes to when every name that stands for something is replaced until none
is left; it comes to one type at most (`Expands.unique`), in which no such name stands
(`Expands.names`).

Names can also be done away with one by one: `Definitions.inline` puts the type of one name wherever
it stands in the types of the others. What the other names then come to is what they came to before
(`Expands.of_inline`), and there is a chain of references that leads back to its start after it if
there was one before (`isCyclic_inline`).
-/

namespace DocTypes

open List

namespace TypeExpr

/-- The types right below a type, in order. -/
def parts : TypeExpr → List TypeExpr
  | .name _ | .any | .unknown | .string _ _ | .number _ => []
  | .union elements | .intersection elements | .tuple elements => elements
  | .generic head arguments _ => head :: arguments
  | .field _ type _ _ _ | .parameter _ type _ _ => type.toList
  | .object fields _ => fields
  | .function parameters result _ _ => parameters ++ result.toList
  | .array e | .parenthesis e | .nullable e _ | .notNullable e _ | .optional e | .typeof e
  | .keyof e => [e]
  | .variadic element => element.toList

/-- A part is smaller than the whole. -/
theorem sizeOf_lt_of_mem_parts {type part : TypeExpr} (h : part ∈ type.parts) :
    sizeOf part < sizeOf type := by
  cases type with
  | name | any | unknown | string | number => cases h
  | union elements | intersection elements | tuple elements | object elements =>
    change part ∈ elements at h
    have := sizeOf_lt_of_mem h
    simp only [union.sizeOf_spec, intersection.sizeOf_spec, tuple.sizeOf_spec, object.sizeOf_spec]
    omega
  | generic head arguments dotted =>
    rw [generic.sizeOf_spec]
    rcases mem_cons.1 h with rfl | h
    · omega
    · have := sizeOf_lt_of_mem h
      omega
  | array | parenthesis | nullable | notNullable | optional | typeof | keyof =>
    cases mem_singleton.1 h
    simp only [array.sizeOf_spec, parenthesis.sizeOf_spec, nullable.sizeOf_spec,
      notNullable.sizeOf_spec, optional.sizeOf_spec, typeof.sizeOf_spec, keyof.sizeOf_spec]
    omega
  | field label type | parameter label type =>
    cases Option.mem_toList.1 h
    simp only [field.sizeOf_spec, parameter.sizeOf_spec, Option.some.sizeOf_spec]
    omega
  | variadic element =>
    cases Option.mem_toList.1 h
    simp only [variadic.sizeOf_spec, Option.some.sizeOf_spec]
    omega
  | function parameters result arrow constructs =>
    rw [function.sizeOf_spec]
    rcases mem_append.1 h with h | h
    · have := sizeOf_lt_of_mem h
      omega
    · cases Option.mem_toList.1 h
      rw [Option.some.sizeOf_spec]
      omega

/-- What holds of a type if it holds of its parts holds of all types. -/
theorem byParts {motive : TypeExpr → Prop}
    (step : ∀ type, (∀ part ∈ type.parts, motive part) → motive type) (type : TypeExpr) :
    motive type :=
  step type fun part h =>
    have := sizeOf_lt_of_mem_parts h
    byParts step part
termination_by sizeOf type

mutual

/-- The names that stand in a type, in order. -/
def names : TypeExpr → List String
  | .name text => [text]
  | .any | .unknown | .string _ _ | .number _ => []
  | .union elements | .intersection elements | .tuple elements => namesAll elements
  | .generic head arguments _ => head.names ++ namesAll arguments
  | .field _ type _ _ _ | .parameter _ type _ _ => namesOption type
  | .object fields _ => namesAll fields
  | .function parameters result _ _ => namesAll parameters ++ namesOption result
  | .array e | .parenthesis e | .nullable e _ | .notNullable e _ | .optional e | .typeof e
  | .keyof e => e.names
  | .variadic element => namesOption element

/-- The names that stand in types. -/
def namesAll : List TypeExpr → List String
  | [] => []
  | type :: rest => type.names ++ namesAll rest

/-- The names that stand in a type that may be missing. -/
def namesOption : Option TypeExpr → List String
  | none => []
  | some type => type.names

end

mutual

/-- The type with every name replaced by what it means. -/
def subst (meaning : String → TypeExpr) : TypeExpr → TypeExpr
  | .name text => meaning text
  | .any => .any
  | .unknown => .unknown
  | .string text quote => .string text quote
  | .number text => .number text
  | .union elements => .union (substAll meaning elements)
  | .intersection elements => .intersection (substAll meaning elements)
  | .generic head arguments dotted =>
    .generic (head.subst meaning) (substAll meaning arguments) dotted
  | .array element => .array (element.subst meaning)
  | .field label type isOptional readonly quote =>
    .field label (substOption meaning type) isOptional readonly quote
  | .object fields separator => .object (substAll meaning fields) separator
  | .tuple elements => .tuple (substAll meaning elements)
  | .parameter label type isOptional isVariadic =>
    .parameter label (substOption meaning type) isOptional isVariadic
  | .function parameters result arrow constructs =>
    .function (substAll meaning parameters) (substOption meaning result) arrow constructs
  | .parenthesis element => .parenthesis (element.subst meaning)
  | .nullable element leading => .nullable (element.subst meaning) leading
  | .notNullable element leading => .notNullable (element.subst meaning) leading
  | .optional element => .optional (element.subst meaning)
  | .variadic element => .variadic (substOption meaning element)
  | .typeof element => .typeof (element.subst meaning)
  | .keyof element => .keyof (element.subst meaning)

/-- The types with every name replaced by what it means. -/
def substAll (meaning : String → TypeExpr) : List TypeExpr → List TypeExpr
  | [] => []
  | type :: rest => type.subst meaning :: substAll meaning rest

/-- The type, if it is there, with every name replaced by what it means. -/
def substOption (meaning : String → TypeExpr) : Option TypeExpr → Option TypeExpr
  | none => none
  | some type => some (type.subst meaning)

end

@[simp]
theorem namesAll_eq_flatMap (types : List TypeExpr) : namesAll types = types.flatMap names := by
  induction types with
  | nil => rfl
  | cons type rest ih => rw [namesAll, flatMap_cons, ih]

@[simp]
theorem namesOption_eq_flatMap (type? : Option TypeExpr) :
    namesOption type? = type?.toList.flatMap names := by
  cases type? with
  | none => rfl
  | some type => simp [namesOption]

@[simp]
theorem substAll_eq_map (meaning : String → TypeExpr) (types : List TypeExpr) :
    substAll meaning types = types.map (subst meaning) := by
  induction types with
  | nil => rfl
  | cons type rest ih => rw [substAll, map_cons, ih]

@[simp]
theorem substOption_eq_map (meaning : String → TypeExpr) (type? : Option TypeExpr) :
    substOption meaning type? = type?.map (subst meaning) := by
  cases type? <;> rfl

section
variable {type : TypeExpr} {f g : String → TypeExpr}

/-- In a type that is no name, the names stand in its parts. -/
theorem names_of_parts (h : ∀ text, type ≠ .name text) : type.names = type.parts.flatMap names := by
  cases type with
  | name text => exact absurd rfl (h text)
  | _ => simp [names, parts]

/-- In a type that is no name, names are replaced in its parts. -/
theorem parts_subst (h : ∀ text, type ≠ .name text) :
    (type.subst f).parts = type.parts.map (subst f) := by
  cases type with
  | name text => exact absurd rfl (h text)
  | field label type | parameter label type => cases type <;> simp [subst, parts]
  | variadic element => cases element <;> simp [subst, parts]
  | function parameters result => cases result <;> simp [subst, parts]
  | _ => simp [subst, parts]

/-- A type that is no name is none after names were replaced. -/
theorem subst_ne_name (h : ∀ text, type ≠ .name text) (text : String) :
    type.subst f ≠ .name text := by
  cases type with
  | name text => exact absurd rfl (h text)
  | _ => simp [subst]

/-- Two types with the same parts after names were replaced in one type are the same. -/
theorem subst_eq_subst (hname : ∀ text, type = .name text → f text = g text)
    (h : ∀ part ∈ type.parts, part.subst f = part.subst g) : type.subst f = type.subst g := by
  cases type with
  | name text => rw [subst, subst, hname text rfl]
  | any | unknown | string | number => rfl
  | field label type | parameter label type => cases type <;> simp_all [subst, parts]
  | variadic element => cases element <;> simp_all [subst, parts]
  | function parameters result => cases result <;> simp_all [subst, parts]
  | _ => simp_all [subst, parts]

end

/-- What names mean matters for those in the type only. -/
theorem subst_congr {f g : String → TypeExpr} (type : TypeExpr)
    (h : ∀ name ∈ type.names, f name = g name) : type.subst f = type.subst g := by
  induction type using byParts with
  | step type ih =>
    refine subst_eq_subst (fun text heq => h text (heq ▸ mem_singleton_self text))
      fun part hpart => ih part hpart fun label hlabel => h label ?_
    by_cases hname : ∃ text, type = .name text
    · obtain ⟨text, rfl⟩ := hname
      cases hpart
    · rw [names_of_parts (not_exists.1 hname)]
      exact mem_flatMap.2 ⟨part, hpart, hlabel⟩

/-- Names that mean themselves leave a type as it is. -/
theorem subst_name (type : TypeExpr) : type.subst .name = type := by
  have hmap : ∀ {types : List TypeExpr}, (∀ type ∈ types, type.subst .name = type) →
      types.map (subst .name) = types :=
    fun h => (map_congr_left h).trans (map_id _)
  induction type using byParts with
  | step type ih =>
    cases type with
    | name | any | unknown | string | number => rfl
    | field label type | parameter label type => cases type <;> simp_all [subst, parts]
    | variadic element => cases element <;> simp_all [subst, parts]
    | function parameters result =>
      rw [subst, substAll_eq_map, hmap fun part hpart => ih part (mem_append_left _ hpart)]
      cases result <;> simp_all [parts]
    | generic head arguments dotted =>
      rw [subst, substAll_eq_map, hmap fun part hpart => ih part (.tail _ hpart), ih head (.head _)]
    | union elements | intersection elements | tuple elements | object elements =>
      rw [subst, substAll_eq_map, hmap (show ∀ part ∈ elements, _ from ih)]
    | _ => simp_all [subst, parts]

/-- Replacing names twice is replacing them once. -/
theorem subst_subst (f g : String → TypeExpr) (type : TypeExpr) :
    (type.subst f).subst g = type.subst fun label => (f label).subst g := by
  induction type using byParts with
  | step type ih =>
    cases type with
    | name | any | unknown | string | number => rfl
    | field label type | parameter label type => cases type <;> simp_all [subst, parts]
    | variadic element => cases element <;> simp_all [subst, parts]
    | function parameters result => cases result <;> simp_all [subst, parts]
    | _ => simp_all [subst, parts]

/-- The names in a type after names were replaced stand in what these mean. -/
theorem names_subst (f : String → TypeExpr) (type : TypeExpr) :
    (type.subst f).names = type.names.flatMap fun label => (f label).names := by
  induction type using byParts with
  | step type ih =>
    by_cases hname : ∃ text, type = .name text
    · obtain ⟨text, rfl⟩ := hname
      simp [subst, names]
    · have hother := not_exists.1 hname
      rw [names_of_parts (subst_ne_name hother), parts_subst hother, names_of_parts hother,
        flatMap_map, flatMap_assoc]
      exact flatMap_congr ih

/-- What names mean if only one of them stands for a type. -/
def only (label : String) (type : TypeExpr) (other : String) : TypeExpr :=
  if other = label then type else .name other

/-- The names in a type after one of them was replaced. -/
theorem mem_names_only {label other : String} {inner type : TypeExpr} (h : other ≠ label) :
    other ∈ (type.subst (only label inner)).names ↔
      other ∈ type.names ∨ label ∈ type.names ∧ other ∈ inner.names := by
  rw [names_subst, mem_flatMap]
  constructor
  · rintro ⟨name, hname, hother⟩
    rw [only] at hother
    split at hother
    case isTrue heq => exact .inr ⟨heq ▸ hname, hother⟩
    case isFalse =>
      cases mem_singleton.1 hother
      exact .inl hname
  · rintro (hother | ⟨hlabel, hother⟩)
    · refine ⟨other, hother, ?_⟩
      rw [only, if_neg h]
      exact mem_singleton_self _
    · refine ⟨label, hlabel, ?_⟩
      rw [only, if_pos rfl]
      exact hother

/-- A name that does not stand in a type is not replaced in it. -/
theorem subst_only_of_notMem {label : String} {inner type : TypeExpr} (h : label ∉ type.names) :
    type.subst (only label inner) = type := by
  refine (subst_congr type fun other hother => ?_).trans (subst_name type)
  rw [only, if_neg]
  rintro rfl
  exact h hother

end TypeExpr

/-- What names stand for, those that stand for something. -/
abbrev Definitions := String → Option TypeExpr

namespace Definitions

open TypeExpr (only)

variable {defs : Definitions} {name : String} {type inner result : TypeExpr}

/-- What a type comes to when each name in it that stands for something is replaced by what that
comes to. -/
inductive Expands (defs : Definitions) : TypeExpr → TypeExpr → Prop
  | intro {type : TypeExpr} (meaning : String → TypeExpr)
    (kept : ∀ name ∈ type.names, defs name = none → meaning name = .name name)
    (expanded : ∀ name ∈ type.names, ∀ inner, defs name = some inner →
      Expands defs inner (meaning name)) :
    Expands defs type (type.subst meaning)

/-- The first name stands for a type in which the second one stands, which stands for something
too. -/
def Refers (defs : Definitions) (first second : String) : Prop :=
  ∃ type, defs first = some type ∧ second ∈ type.names ∧ (defs second).isSome

/-- The definitions without that of one name, which is replaced in all others. -/
def inline (defs : Definitions) (name : String) (type : TypeExpr) : Definitions := fun other =>
  if other = name then none else (defs other).map (TypeExpr.subst (only name type))

/-- A type in which no name stands for something stays as it is. -/
theorem expands_self (h : ∀ name ∈ type.names, defs name = none) : defs.Expands type type := by
  have hself : defs.Expands type (type.subst .name) :=
    .intro .name (fun _ _ _ => rfl) fun name hname inner hinner => by
      rw [h name hname] at hinner
      cases hinner
  rwa [TypeExpr.subst_name] at hself

/-- A type comes to one type at most. -/
theorem Expands.unique (h : defs.Expands type result) {result' : TypeExpr}
    (h' : defs.Expands type result') : result = result' := by
  induction h generalizing result' with
  | @intro type meaning kept expanded ih =>
    cases h' with
    | intro meaning' kept' expanded' =>
    refine TypeExpr.subst_congr type fun name hname => ?_
    cases hdef : defs name with
    | none => rw [kept name hname hdef, kept' name hname hdef]
    | some inner => exact ih name hname inner hdef (expanded' name hname inner hdef)

/-- No name that stands for something is left. -/
theorem Expands.names (h : defs.Expands type result) : ∀ name ∈ result.names, defs name = none := by
  induction h with
  | @intro type meaning kept expanded ih =>
    intro name hname
    rw [TypeExpr.names_subst] at hname
    obtain ⟨other, hother, hname⟩ := mem_flatMap.1 hname
    cases hdef : defs other with
    | none =>
      rw [kept other hother hdef] at hname
      cases mem_singleton.1 hname
      exact hdef
    | some inner => exact ih other hother inner hdef name hname

/-- What a type comes to after a name was done away with is what it came to before. -/
theorem Expands.of_inline (hdef : defs name = some inner) (hself : name ∉ inner.names)
    (h : (defs.inline name inner).Expands (type.subst (only name inner)) result) :
    defs.Expands type result := by
  generalize hstart : type.subst (only name inner) = start at h
  induction h generalizing type with
  | @intro start meaning kept expanded ih =>
    subst hstart
    -- a name other than `name` is replaced as before, and `name` by what its type comes to
    have hkept : ∀ other, other ≠ name → other ∈ (type.subst (only name inner)).names →
        defs other = none → meaning other = .name other := by
      intro other hne hother hnone
      refine kept other hother ?_
      rw [inline, if_neg hne, hnone]
      rfl
    have hexpanded : ∀ other, other ≠ name → other ∈ (type.subst (only name inner)).names →
        ∀ type', defs other = some type' → defs.Expands type' (meaning other) := by
      intro other hne hother type' htype'
      refine ih other hother _ ?_ rfl
      rw [inline, if_neg hne, htype']
      rfl
    rw [TypeExpr.subst_subst]
    refine .intro _ (fun other hother hnone => ?_) fun other hother type' htype' => ?_
    · have hne : other ≠ name := by
        rintro rfl
        rw [hdef] at hnone
        cases hnone
      rw [only, if_neg hne]
      exact hkept other hne ((TypeExpr.mem_names_only hne).2 (.inl hother)) hnone
    · by_cases heq : other = name
      · subst heq
        rw [hdef] at htype'
        cases htype'
        rw [only, if_pos rfl]
        have hmem : ∀ third ∈ inner.names, third ≠ other ∧
            third ∈ (type.subst (only other inner)).names := by
          intro third hthird
          have hne : third ≠ other := by
            rintro rfl
            exact hself hthird
          exact ⟨hne, (TypeExpr.mem_names_only hne).2 (.inr ⟨hother, hthird⟩)⟩
        exact .intro meaning
          (fun third hthird => hkept third (hmem third hthird).1 (hmem third hthird).2)
          fun third hthird => hexpanded third (hmem third hthird).1 (hmem third hthird).2
      · rw [only, if_neg heq]
        exact hexpanded other heq ((TypeExpr.mem_names_only heq).2 (.inl hother)) type' htype'

end Definitions

section
variable {α : Type} {rel : α → α → Prop} {point : α}

/-- The relation around a point: it leads past the point, and not to it. -/
def Bypass (rel : α → α → Prop) (point first second : α) : Prop :=
  first ≠ point ∧ second ≠ point ∧ (rel first second ∨ rel first point ∧ rel point second)

/-- A chain that leads past a point is a chain. -/
theorem transGen_of_bypass {first last : α} (h : Relation.TransGen (Bypass rel point) first last) :
    Relation.TransGen rel first last := by
  have hstep : ∀ {first second}, Bypass rel point first second →
      Relation.TransGen rel first second := by
    rintro first second ⟨-, -, hrel | ⟨hto, hfrom⟩⟩
    · exact .single hrel
    · exact .tail (.single hto) hfrom
  induction h with
  | single hrel => exact hstep hrel
  | tail _ hrel ih => exact ih.trans (hstep hrel)

/-- A chain from elsewhere can be led past a point, up to its last step if that is the point. -/
theorem bypass_of_transGen (hpoint : ¬ rel point point) {first last : α} (hfirst : first ≠ point)
    (h : Relation.TransGen rel first last) :
    (last ≠ point → Relation.TransGen (Bypass rel point) first last) ∧
      (last = point → ∃ before, Relation.ReflTransGen (Bypass rel point) first before ∧
        before ≠ point ∧ rel before point) := by
  induction h with
  | @single last hrel =>
    exact ⟨fun hlast => .single ⟨hfirst, hlast, .inl hrel⟩,
      fun hlast => ⟨first, .refl, hfirst, hlast ▸ hrel⟩⟩
  | @tail middle last _ hrel ih =>
    by_cases hmiddle : middle = point
    · obtain ⟨before, hchain, hbefore, hto⟩ := ih.2 hmiddle
      rw [hmiddle] at hrel
      refine ⟨fun hlast => .tail' hchain ⟨hbefore, hlast, .inr ⟨hto, hrel⟩⟩, ?_⟩
      rintro rfl
      exact absurd hrel hpoint
    · have hchain := ih.1 hmiddle
      exact ⟨fun hlast => hchain.tail ⟨hmiddle, hlast, .inl hrel⟩,
        fun hlast => ⟨middle, hchain.to_reflTransGen, hmiddle, hlast ▸ hrel⟩⟩

/-- Leading past a point that is not related to itself keeps cycles, and makes none. -/
theorem exists_cycle_bypass (hpoint : ¬ rel point point) :
    (∃ start, Relation.TransGen (Bypass rel point) start start) ↔
      ∃ start, Relation.TransGen rel start start := by
  constructor
  · rintro ⟨start, hcycle⟩
    exact ⟨start, transGen_of_bypass hcycle⟩
  · rintro ⟨start, hcycle⟩
    by_cases hstart : start = point
    · -- a cycle through the point is started at the next place
      subst hstart
      obtain ⟨next, hnext, hback⟩ := Relation.TransGen.head'_iff.1 hcycle
      have hne : next ≠ start := by
        rintro rfl
        exact hpoint hnext
      exact ⟨next, (bypass_of_transGen hpoint hne (.tail' hback hnext)).1 hne⟩
    · exact ⟨start, (bypass_of_transGen hpoint hstart hcycle).1 hstart⟩

end

namespace Definitions

variable {defs : Definitions} {name : String} {inner : TypeExpr}

/-- After a name was done away with, what referred to it refers to what it referred to. -/
theorem refers_inline_iff (hdef : defs name = some inner) {first second : String} :
    (defs.inline name inner).Refers first second ↔ Bypass defs.Refers name first second := by
  have hname : (defs name).isSome := by rw [hdef]; rfl
  constructor
  · rintro ⟨type, htype, hmem, hsome⟩
    rw [inline] at htype
    split at htype
    case isTrue => cases htype
    case isFalse hfirst =>
      rw [inline] at hsome
      split at hsome
      case isTrue => cases hsome
      case isFalse hsecond =>
        obtain ⟨type', htype', rfl⟩ := Option.map_eq_some_iff.1 htype
        rw [Option.isSome_map] at hsome
        refine ⟨hfirst, hsecond, ?_⟩
        rcases (TypeExpr.mem_names_only hsecond).1 hmem with hmem | ⟨hmem, hinner⟩
        · exact .inl ⟨type', htype', hmem, hsome⟩
        · exact .inr ⟨⟨type', htype', hmem, hname⟩, inner, hdef, hinner, hsome⟩
  · rintro ⟨hfirst, hsecond, h⟩
    have hinline : ∀ {type}, defs first = some type →
        defs.inline name inner first = some (type.subst (TypeExpr.only name inner)) := by
      intro type htype
      rw [inline, if_neg hfirst, htype]
      rfl
    have hsome : (defs second).isSome → (defs.inline name inner second).isSome := by
      intro h
      rwa [inline, if_neg hsecond, Option.isSome_map]
    rcases h with ⟨type, htype, hmem, h⟩ | ⟨⟨type, htype, hmem, -⟩, type', htype', hmem', h⟩
    · exact ⟨_, hinline htype, (TypeExpr.mem_names_only hsecond).2 (.inl hmem), hsome h⟩
    · rw [hdef] at htype'
      cases htype'
      exact ⟨_, hinline htype, (TypeExpr.mem_names_only hsecond).2 (.inr ⟨hmem, hmem'⟩), hsome h⟩

/-- Some name refers to itself, directly or through others. -/
def IsCyclic (defs : Definitions) : Prop :=
  ∃ name, Relation.TransGen defs.Refers name name

/-- Doing away with a name that does not stand in its own type keeps cycles, and makes none. -/
theorem isCyclic_inline (hdef : defs name = some inner) (hself : name ∉ inner.names) :
    (defs.inline name inner).IsCyclic ↔ defs.IsCyclic := by
  have hrefers : (defs.inline name inner).Refers = Bypass defs.Refers name := by
    funext first second
    exact propext (refers_inline_iff hdef)
  rw [IsCyclic, hrefers]
  refine exists_cycle_bypass fun ⟨type, htype, hmem, _⟩ => ?_
  rw [hdef] at htype
  cases htype
  exact hself hmem

end Definitions

end DocTypes
