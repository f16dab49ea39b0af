import DocTypes.Proofs.TypeExpr.Formed

/-!
# Types up to grouping

A tree says more than the text needs to show: where parentheses stand, whether a union was written
in parts, and which sign separates the fields of an object. `strip` takes that away. `reread` is the
tree that the printed text of a type has: parentheses stand where printing puts them, and a union in
a union, or an intersection in an intersection, is one with it. Both trees are the same up to
grouping (`strip_reread`).
-/

namespace DocTypes

namespace TypeExpr

/-- The alternatives of a type. -/
def alternatives : TypeExpr → List TypeExpr
  | .union elements => elements
  | type => [type]

/-- The types that a type joins with `&`. -/
def conjuncts : TypeExpr → List TypeExpr
  | .intersection elements => elements
  | type => [type]

/-- The type, in parentheses if `loose` holds. -/
def covered (loose : Bool) (type : TypeExpr) : TypeExpr :=
  if loose then .parenthesis type else type

mutual

/-- The type without its parentheses, without unions right in unions and intersections right in
intersections, and with commas between all fields. -/
def strip : TypeExpr → TypeExpr
  | .name text => .name text
  | .any => .any
  | .unknown => .unknown
  | .string text quote => .string text quote
  | .number text => .number text
  | .union elements => .union (stripAll alternatives elements)
  | .intersection elements => .intersection (stripAll conjuncts elements)
  | .generic head arguments dotted => .generic head.strip (stripAll ([·]) arguments) dotted
  | .array element => .array element.strip
  | .field label type isOptional readonly quote =>
    .field label (stripOption type) isOptional readonly quote
  | .object fields _ => .object (stripAll ([·]) fields) ','
  | .tuple elements => .tuple (stripAll ([·]) elements)
  | .parameter label type isOptional isVariadic =>
    .parameter label (stripOption type) isOptional isVariadic
  | .function parameters result arrow constructs =>
    .function (stripAll ([·]) parameters) (stripOption result) arrow constructs
  | .parenthesis element => element.strip
  | .nullable element leading => .nullable element.strip leading
  | .notNullable element leading => .notNullable element.strip leading
  | .optional element => .optional element.strip
  | .variadic element => .variadic (stripOption element)
  | .typeof element => .typeof element.strip
  | .keyof element => .keyof element.strip

/-- What the types split into after each was stripped. -/
def stripAll (split : TypeExpr → List TypeExpr) : List TypeExpr → List TypeExpr
  | [] => []
  | type :: rest => split type.strip ++ stripAll split rest

/-- The type, if it is there, stripped. -/
def stripOption : Option TypeExpr → Option TypeExpr
  | none => none
  | some type => some type.strip

end

mutual

/-- The tree of the type's text. -/
def reread : TypeExpr → TypeExpr
  | .name text => .name text
  | .any => .any
  | .unknown => .unknown
  | .string text quote => .string text quote
  | .number text => .number text
  | .union elements => .union (rereadAll isArrow alternatives elements)
  | .intersection elements =>
    .intersection (rereadAll (fun e => e.isUnion || e.isArrow) conjuncts elements)
  | .generic head arguments dotted =>
    .generic head.reread (rereadAll (fun _ => false) ([·]) arguments) dotted
  | .array element => .array (covered (element.isPrefixed || element.isLow) element.reread)
  | .field label type isOptional readonly quote =>
    .field label (rereadOption (fun _ => false) type) isOptional readonly quote
  | .object fields separator =>
    .object (rereadAll (fun _ => false) ([·]) fields) (if fields.length ≤ 1 then ',' else separator)
  | .tuple elements => .tuple (rereadAll (fun _ => false) ([·]) elements)
  | .parameter label type isOptional isVariadic =>
    .parameter label (rereadOption (fun _ => false) type) isOptional isVariadic
  | .function parameters result arrow constructs =>
    .function (rereadAll (fun _ => false) ([·]) parameters)
      (rereadOption (fun r => !arrow && (r.isJoined || r.isArrow)) result) arrow constructs
  | .parenthesis element => .parenthesis element.reread
  | .nullable element leading => .nullable (covered element.isLow element.reread) leading
  | .notNullable element leading => .notNullable (covered element.isLow element.reread) leading
  | .optional element => .optional (covered element.isLow element.reread)
  | .variadic element => .variadic (rereadOption isLow element)
  | .typeof element => .typeof element.reread
  | .keyof element => .keyof (covered (element.isJoined || element.isArrow) element.reread)

/-- The trees of the texts of types, in parentheses where `loose` holds and split otherwise. -/
def rereadAll (loose : TypeExpr → Bool) (split : TypeExpr → List TypeExpr) :
    List TypeExpr → List TypeExpr
  | [] => []
  | type :: rest =>
    (if loose type then [.parenthesis type.reread] else split type.reread) ++
      rereadAll loose split rest

/-- The tree of the text of a type, if it is there, in parentheses if `loose` holds. -/
def rereadOption (loose : TypeExpr → Bool) : Option TypeExpr → Option TypeExpr
  | none => none
  | some type => some (covered (loose type) type.reread)

end

@[simp]
theorem stripAll_eq_flatMap (split : TypeExpr → List TypeExpr) (types : List TypeExpr) :
    stripAll split types = types.flatMap fun e => split e.strip := by
  induction types with
  | nil => rfl
  | cons type rest ih => rw [stripAll, List.flatMap_cons, ih]

@[simp]
theorem stripOption_eq_map (type? : Option TypeExpr) : stripOption type? = type?.map strip := by
  cases type? <;> rfl

@[simp]
theorem rereadAll_eq_flatMap (loose : TypeExpr → Bool) (split : TypeExpr → List TypeExpr)
    (types : List TypeExpr) : rereadAll loose split types =
      types.flatMap fun e => if loose e then [.parenthesis e.reread] else split e.reread := by
  induction types with
  | nil => rfl
  | cons type rest ih => rw [rereadAll, List.flatMap_cons, ih]

@[simp]
theorem rereadOption_eq_map (loose : TypeExpr → Bool) (type? : Option TypeExpr) :
    rereadOption loose type? = type?.map fun e => covered (loose e) e.reread := by
  cases type? <;> rfl

@[simp]
theorem strip_covered (loose : Bool) (type : TypeExpr) :
    (covered loose type).strip = type.strip := by
  cases loose <;> rfl

/-- The alternatives of a stripped type are those of its alternatives. -/
theorem flatMap_alternatives (type : TypeExpr) :
    type.alternatives.flatMap (fun e => e.strip.alternatives) = type.strip.alternatives := by
  cases type with
  | union elements => simp [alternatives, strip]
  | _ => simp [alternatives]

/-- What a stripped type joins is what the types that it joins do. -/
theorem flatMap_conjuncts (type : TypeExpr) :
    type.conjuncts.flatMap (fun e => e.strip.conjuncts) = type.strip.conjuncts := by
  cases type with
  | intersection elements => simp [conjuncts, strip]
  | _ => simp [conjuncts]

/-- What split types split into after they were reread and stripped. -/
theorem stripAll_rereadAll (loose : TypeExpr → Bool) {split : TypeExpr → List TypeExpr}
    (hsplit : ∀ type, (split type).flatMap (fun e => split e.strip) = split type.strip)
    {types : List TypeExpr} (h : ∀ type ∈ types, type.reread.strip = type.strip) :
    stripAll split (rereadAll loose split types) = stripAll split types := by
  rw [stripAll_eq_flatMap, stripAll_eq_flatMap, rereadAll_eq_flatMap, List.flatMap_assoc]
  refine List.flatMap_congr fun e he => ?_
  split
  · simp [strip, h e he]
  · rw [hsplit, h e he]

/-- Reading the text of a type again changes its grouping only. -/
theorem strip_reread (type : TypeExpr) : type.reread.strip = type.strip := by
  induction type using byParts with
  | step type ih =>
    have hlist : ∀ {types : List TypeExpr}, (∀ e ∈ types, e.reread.strip = e.strip) →
        stripAll ([·]) (rereadAll (fun _ => false) ([·]) types) = stripAll ([·]) types :=
      fun h => stripAll_rereadAll _ (fun _ => rfl) h
    cases type with
    | name | any | unknown | string | number => rfl
    | union elements =>
      simp only [parts] at ih
      rw [reread, strip, strip, stripAll_rereadAll _ flatMap_alternatives ih]
    | intersection elements =>
      simp only [parts] at ih
      rw [reread, strip, strip, stripAll_rereadAll _ flatMap_conjuncts ih]
    | generic head arguments dotted =>
      obtain ⟨hhead, harguments⟩ := List.forall_mem_cons.1 ih
      rw [reread, strip, strip, hhead, hlist harguments]
    | tuple elements | object elements =>
      simp only [parts] at ih
      rw [reread, strip, strip, hlist ih]
    | array e | parenthesis e | nullable e | notNullable e | optional e | typeof e | keyof e =>
      have he := ih e (.head _)
      simp [reread, strip, he]
    | field label type | parameter label type =>
      cases type with
      | none => rfl
      | some type =>
        have htype := ih type (.head _)
        simp [reread, strip, htype]
    | variadic type =>
      cases type with
      | none => rfl
      | some type =>
        have htype := ih type (.head _)
        simp [reread, strip, htype]
    | function parameters result =>
      have hparameters : ∀ e ∈ parameters, e.reread.strip = e.strip :=
        fun e he => ih e (List.mem_append_left _ he)
      rw [reread, strip, strip, hlist hparameters]
      cases result with
      | none => rfl
      | some type =>
        have htype := ih type (List.mem_append_right _ (.head _))
        simp [htype]

end TypeExpr

end DocTypes
