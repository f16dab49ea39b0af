import DocTypes.Proofs.Except
import DocTypes.Proofs.Reader.Cursor
import DocTypes.Proofs.Tree.Node

/-!
# Where keys and patterns stand

An expression that is taken for an assignment target keeps its place: parts of it are recast, each
in the span it had, so what was placed stays placed (`placed_toPattern`). The readers of keys and
of binding targets then follow, each with what it ensures of the node it reads, given that the
reader one level down reads nodes once a token was taken (`Recurs`).
-/

namespace DocTypes

open List

section
variable {tokens : List Token}

/-- Two kinds of nodes that are bounded alike. -/
def SameForm (kind kind' : Kind) : Prop :=
  (kind' = .templateElement ↔ kind = .templateElement) ∧ kind'.isForm = kind.isForm ∧
    (kind' = .templateLiteral ↔ kind = .templateLiteral)

variable {kind kind' : Kind} {values values' : List Value} {node : Node}
  {convert : Node → Except Node Node}

theorem SameForm.of_eq (h : kind' = kind) : SameForm kind kind' := by
  subst h
  exact ⟨Iff.rfl, rfl, Iff.rfl⟩

theorem SameForm.bounded (h : SameForm kind kind') {span : Span}
    (hbounds : Bounded tokens kind span) : Bounded tokens kind' span := by
  simpa only [Bounded, h.1, h.2.1] using hbounds

theorem SameForm.inTurn (h : SameForm kind kind') {spans : List Span} (hturns : InTurn kind spans) :
    InTurn kind' spans := by
  simpa only [InTurn, h.2.2] using hturns

/-- A value and what may stand for it: the same, or another placed node with the same span. -/
def Stands (tokens : List Token) (value value' : Value) : Prop :=
  value' = value ∨ ∃ node node', value = .node node ∧ value' = .node node' ∧
    node'.span = node.span ∧ Placed tokens node'

/-- Values that stand for others have the same spans. -/
theorem Stands.spans_eq (h : List.Forall₂ (Stands tokens) values values') :
    (values'.filterMap Value.node?).filterMap Node.span =
      (values.filterMap Value.node?).filterMap Node.span := by
  induction h with
  | nil => rfl
  | @cons value value' _ _ hvalue _ ih =>
    rcases hvalue with rfl | ⟨node, node', rfl, rfl, hspan, _⟩
    · cases value' <;> simp only [filterMap_cons, Value.node?, ih]
    · simp only [filterMap_cons, Value.node?, hspan, ih]

/-- Values that stand for arranged ones are arranged in their place. -/
theorem Arranged.stands {span : Span} (h : Arranged span values)
    (hs : List.Forall₂ (Stands tokens) values values') : Arranged span values' := by
  refine ⟨fun value' hmem => ?_, ?_⟩
  · obtain ⟨i, hi, rfl⟩ := mem_iff_getElem.1 hmem
    have hi' : i < values.length := by rw [hs.length_eq]; exact hi
    have hnode := h.nodes _ (getElem_mem hi')
    rcases hs.get hi' hi with heq | ⟨node, node', _, heq, hspan, hplaced⟩
    · simp only [get_eq_getElem] at heq
      rw [heq]
      exact hnode
    · cases hplaced with
      | intro place _ _ _ => exact .inr ⟨node', _, heq, place⟩
  · rw [Stands.spans_eq hs]
    exact h.inside

/-- Nodes that stand for placed ones are placed. -/
theorem Stands.placed (hs : List.Forall₂ (Stands tokens) values values')
    (h : ∀ child ∈ values.filterMap Value.node?, Placed tokens child) :
    ∀ child ∈ values'.filterMap Value.node?, Placed tokens child := by
  intro child hchild
  obtain ⟨value', hmem, hnode⟩ := mem_filterMap.1 hchild
  obtain ⟨i, hi, rfl⟩ := mem_iff_getElem.1 hmem
  have hi' : i < values.length := by rw [hs.length_eq]; exact hi
  rcases hs.get hi' hi with heq | ⟨_, node', _, heq, _, hplaced⟩
  · simp only [get_eq_getElem] at heq
    rw [heq] at hnode
    exact h child (mem_filterMap.2 ⟨_, getElem_mem hi', hnode⟩)
  · simp only [get_eq_getElem] at heq
    rw [heq] at hnode
    cases hnode
    exact hplaced

/-- A node is placed if another is that stands in the same place, with children that stand for
each other. -/
theorem Placed.recast {node' : Node} (h : Placed tokens node) (hspan : node'.span = node.span)
    (hform : SameForm node.kind node'.kind)
    (hs : List.Forall₂ (Stands tokens) node.childValues node'.childValues) :
    Placed tokens node' := by
  cases h with
  | intro place bounds arranged below turns =>
    refine .intro (hspan.trans place) (hform.bounded bounds) (arranged.stands hs)
      (Stands.placed hs below) ?_
    rw [spansOf, Stands.spans_eq hs]
    exact hform.inTurn turns

/-- A node that lost its children is still placed. -/
theorem Placed.childless {node' : Node} (h : Placed tokens node) (hspan : node'.span = node.span)
    (hform : SameForm node.kind node'.kind) (hnil : node'.childValues = []) :
    Placed tokens node' := by
  cases h with
  | intro place bounds arranged below =>
    refine .intro (hspan.trans place) (hform.bounded bounds) ?_ ?_ ?_
    · rw [hnil]
      exact ⟨forall_mem_nil _, forall_mem_nil _⟩
    · intro child hchild
      rw [Node.childNodes, hnil] at hchild
      cases hchild
    · rw [hnil]
      exact inTurn_nil _

/-- A conversion of nodes that keeps them placed, each in its span. -/
def Keeps (tokens : List Token) (convert : Node → Except Node Node) : Prop :=
  ∀ node node', convert node = .ok node' → Placed tokens node →
    Placed tokens node' ∧ node'.span = node.span

/-- The children of a placed node are placed. -/
theorem Placed.child {child : Node} (h : Placed tokens node)
    (hchild : .node child ∈ node.childValues) : Placed tokens child := by
  cases h with
  | intro _ _ _ below => exact below child (mem_filterMap.2 ⟨_, hchild, rfl⟩)

/-- Converted items stand for the items they were. -/
theorem stands_convertItems {items value : Value} (hkeeps : Keeps tokens convert)
    (hplaced : ∀ child, .node child ∈ items.flat → Placed tokens child)
    (h : Node.convertItems convert items = .ok value) :
    ∃ values, value = .list values ∧
      List.Forall₂ (Stands tokens) (items.items?.getD []) values := by
  obtain ⟨values, hvalues, heq⟩ := bind_eq_ok.1 h
  cases heq
  refine ⟨values, rfl, ?_⟩
  have hmem : ∀ item ∈ items.items?.getD [], item ∈ items.flat := by
    intro item hitem
    cases items with
    | list items => exact hitem
    | _ => cases hitem
  refine (forall₂_iff_zip.2 ⟨(mapM_eq_ok.1 hvalues).length_eq, fun {item value'} hzip => ?_⟩)
  have hstep := (forall₂_iff_zip.1 (mapM_eq_ok.1 hvalues)).2 hzip
  have hitem := hmem item (of_mem_zip hzip).1
  cases item with
  | node node =>
    change (convert node).map Value.node = _ at hstep
    cases hconvert : convert node with
    | error fault =>
      rw [hconvert] at hstep
      cases hstep
    | ok node' =>
      rw [hconvert] at hstep
      cases hstep
      obtain ⟨hplaced', hspan⟩ := hkeeps node node' hconvert (hplaced node hitem)
      exact .inr ⟨node, node', rfl, rfl, hspan, hplaced'⟩
  | _ =>
    cases hstep
    exact .inl rfl

/-- A node whose only child field holds converted items is placed where the old one was. -/
theorem placed_of_convertItems {value : Value} {field : Field} (hkeeps : Keeps tokens convert)
    (h : Placed tokens node) (hform : SameForm node.kind kind)
    (hfields : node.kind.childFields = [field]) (hfields' : kind.childFields = [field])
    (hitems : Node.convertItems convert (node.get field) = .ok value) :
    Placed tokens (node.recast kind [(field, value)]) := by
  have hold : node.childValues = (node.get field).flat := by
    simp [Node.childValues, hfields]
  obtain ⟨values, rfl, hstands⟩ := stands_convertItems hkeeps
    (fun child hchild => h.child (by rw [hold]; exact hchild)) hitems
  have hnew : (node.recast kind [(field, .list values)]).childValues = values := by
    simp [Node.childValues, Node.recast, Node.kind, hfields', Node.get, Node.get?, Node.fields,
      lookup_cons, Value.flat]
  cases hget : node.get field with
  | list items =>
    rw [hget] at hold hstands
    refine h.recast rfl hform ?_
    rw [hnew, hold]
    exact hstands
  | _ =>
    rw [hget] at hstands
    cases hstands
    exact h.childless rfl hform hnew

/-- A spread element stays placed when it is taken for the rest of a pattern. -/
theorem keeps_spreadToRest (hkeeps : Keeps tokens convert) {part part' : Node}
    (hkind : part.kind = .spreadElement) (h : Node.spreadToRest convert part = .ok part')
    (hplaced : Placed tokens part) :
    Placed tokens part' ∧ part'.span = part.span := by
  have hold : part.childValues = (part.get .argument).flat := by
    simp [Node.childValues, hkind, Kind.childFields]
  rw [Node.spreadToRest] at h
  split at h
  case h_1 argument hargument =>
    obtain ⟨argument', hconvert, heq⟩ := bind_eq_ok.1 h
    cases heq
    rw [hargument] at hold
    obtain ⟨hplaced', hspan⟩ := hkeeps argument argument' hconvert
      (hplaced.child (by rw [hold]; exact .head _))
    refine ⟨hplaced.recast rfl
      (by rw [hkind]; simp [SameForm, Node.recast, Node.kind, Kind.isForm]) ?_, rfl⟩
    rw [hold]
    exact .cons (.inr ⟨argument, argument', rfl, rfl, hspan, hplaced'⟩) .nil
  case h_2 => cases h

/-- A node stands where it stood if a child is replaced by another node of the same span. A field
that holds no child does not matter. -/
theorem Placed.set_node {child child' : Node} {field : Field} (h : Placed tokens node)
    (hget : node.get field = .node child)
    (hchild : Placed tokens child → Placed tokens child' ∧ child'.span = child.span) :
    Placed tokens (node.set field (.node child')) := by
  have hset : (node.get? field).isSome := by
    rw [Node.get] at hget
    cases hfield : node.get? field with
    | none => rw [hfield] at hget; cases hget
    | some value => rfl
  have hkept := kind_span_set node field (.node child')
  refine h.recast hkept.2 (.of_eq hkept.1) ?_
  rw [Node.childValues, Node.childValues, hkept.1]
  refine rel_flatMap (R := fun first second => first = second ∧
    first ∈ node.kind.childFields) (forall₂_same.2 fun _ hmem => ⟨rfl, hmem⟩) ?_
  rintro other _ ⟨rfl, hmem⟩
  beta_reduce
  by_cases hother : other = field
  · subst hother
    have hplaced : Placed tokens child :=
      h.child (mem_flatMap.2 ⟨other, hmem, by rw [hget]; exact .head _⟩)
    obtain ⟨hplaced', hspan⟩ := hchild hplaced
    rw [hget, get_set_self hset]
    exact .cons (.inr ⟨child, child', rfl, rfl, hspan, hplaced'⟩) .nil
  · rw [get_set_of_ne hset hother]
    exact forall₂_same.2 fun _ _ => .inl rfl

/-- A property of an object stays placed when it is taken for one of a pattern. -/
theorem keeps_propertyToPattern (hkeeps : Keeps tokens convert) :
    Keeps tokens (Node.propertyToPattern convert) := by
  intro property property' h hplaced
  rw [Node.propertyToPattern] at h
  split at h
  case isTrue hkind => exact keeps_spreadToRest hkeeps (by simpa using hkind) h hplaced
  case isFalse =>
    split at h
    case h_1 value hvalue =>
      obtain ⟨value', hconvert, heq⟩ := bind_eq_ok.1 h
      cases heq
      exact ⟨hplaced.set_node hvalue (hkeeps value value' hconvert), (kind_span_set _ _ _).2⟩
    case h_2 => cases h

/-- An element of an array stays placed when it is taken for one of a pattern. -/
theorem keeps_elementToPattern (hkeeps : Keeps tokens convert) :
    Keeps tokens (Node.elementToPattern convert) := by
  intro element element' h hplaced
  rw [Node.elementToPattern] at h
  split at h
  case isTrue hkind => exact keeps_spreadToRest hkeeps (by simpa using hkind) h hplaced
  case isFalse => exact hkeeps element element' h hplaced

/-- An expression stays placed when it is taken for an assignment target. -/
theorem keeps_toPatternTo : ∀ levels, Keeps tokens (Node.toPatternTo levels)
  | 0 => fun _ _ h _ => nomatch h
  | levels + 1 => by
    have ih := keeps_toPatternTo levels
    intro node node' h hplaced
    rw [Node.toPatternTo] at h
    split at h
    case h_6 hkind =>
      obtain ⟨properties, hproperties, heq⟩ := bind_eq_ok.1 h
      cases heq
      exact ⟨placed_of_convertItems (keeps_propertyToPattern ih) hplaced
        (by rw [hkind]; simp [SameForm, Kind.isForm]) (by rw [hkind]; rfl) rfl hproperties, rfl⟩
    case h_7 hkind =>
      obtain ⟨elements, helements, heq⟩ := bind_eq_ok.1 h
      cases heq
      exact ⟨placed_of_convertItems (keeps_elementToPattern ih) hplaced
        (by rw [hkind]; simp [SameForm, Kind.isForm]) (by rw [hkind]; rfl) rfl helements, rfl⟩
    case h_8 hkind =>
      split at h
      case h_1 left hoperator hleft =>
        obtain ⟨left', hconvert, heq⟩ := bind_eq_ok.1 h
        cases heq
        have hold : node.childValues = [.node left] ++ (node.get .right).flat := by
          simp [Node.childValues, hkind, Kind.childFields, hleft, Value.flat]
        obtain ⟨hleft', hspan⟩ := ih left left' hconvert
          (hplaced.child (by rw [hold]; exact .head _))
        refine ⟨hplaced.recast rfl
          (by rw [hkind]; simp [SameForm, Node.recast, Node.kind, Kind.isForm]) ?_, rfl⟩
        have hnew : (node.recast .assignmentPattern
            [(.left, .node left'), (.right, node.get .right)]).childValues =
              [.node left'] ++ (node.get .right).flat := by
          change [.node left'] ++ ((node.get .right).flat ++ []) = _
          rw [append_nil]
        rw [hold, hnew]
        exact .cons (.inr ⟨left, left', rfl, rfl, hspan, hleft'⟩)
          (forall₂_same.2 fun _ _ => .inl rfl)
      case h_2 => cases h
    case h_9 => cases h
    all_goals
      cases h
      exact ⟨hplaced, rfl⟩

/-- What was taken for an assignment target is no text of a template. -/
theorem toPatternTo_kind : ∀ {levels : Nat} {node node' : Node},
    Node.toPatternTo levels node = .ok node' → node'.kind.isForm = true
  | 0, _, _, h => nomatch h
  | levels + 1, node, node', h => by
    rw [Node.toPatternTo] at h
    split at h
    case h_6 | h_7 =>
      obtain ⟨_, _, heq⟩ := bind_eq_ok.1 h
      cases heq
      rfl
    case h_8 =>
      split at h
      case h_1 =>
        obtain ⟨_, _, heq⟩ := bind_eq_ok.1 h
        cases heq
        rfl
      case h_2 => cases h
    case h_9 => cases h
    all_goals
      rename_i hkind
      cases h
      rw [hkind]
      rfl

end

namespace TreeReader

section
variable {lexed : Lexed} {before cursor : Cursor}
  {recur : Goal → TreeReader Node}

/-- An expression that was read is read as an assignment target too. -/
theorem ensures_assignmentTarget {node : Node} {start : Nat}
    (h : ReadsFrom lexed start before node cursor) :
    Ensures (assignmentTarget node) cursor fun target cursor' =>
      cursor' = cursor ∧ ReadsFrom lexed start before target cursor := by
  rw [assignmentTarget]
  split
  case h_1 pattern hpattern =>
    obtain ⟨hto, hlt, _, hplaced, span, hspan, hle⟩ := h
    obtain ⟨hplaced', hspan'⟩ := keeps_toPatternTo _ _ _ hpattern hplaced
    exact ensures_pure ⟨rfl, hto, hlt, toPatternTo_kind hpattern, hplaced', span,
      hspan'.trans hspan, hle⟩
  case h_2 => exact ensures_get_bind.2 (ensures_throw (liesIn_positionAt _ _))

/-- The reader one level down reads nodes, once a token was taken from the cursor. -/
structure Recurs (lexed : Lexed) (cursor : Cursor) (recur : Goal → TreeReader Node) : Prop where
  sound : cursor.Sound lexed
  reads {goal : Goal} {after : Cursor} :
    Moves lexed cursor after → Ensures (recur goal) after (Reads lexed after)

/-- The reader one level down reads nodes from a later cursor on. -/
theorem Recurs.to (hr : Recurs lexed before recur) (h : before.To lexed cursor) :
    Recurs lexed cursor recur where
  sound := h.1
  reads hmoves := hr.reads (hmoves.after h)

/-- The reader one level down reads nodes in every scope. -/
theorem Recurs.scoped (hr : Recurs lexed cursor recur) (scope : Scope) :
    Recurs lexed { cursor with scope } recur :=
  hr.to hr.sound.to

/-- The reader one level down reads nodes, also if no token was taken from the cursor. -/
def RecursHere (lexed : Lexed) (cursor : Cursor) (recur : Goal → TreeReader Node) : Prop :=
  ∃ before, Recurs lexed before recur ∧ Moves lexed before cursor

/-- Once a token was taken the reader one level down reads nodes. -/
theorem Recurs.here (hr : Recurs lexed before recur) (h : Moves lexed before cursor) :
    RecursHere lexed cursor recur :=
  ⟨before, hr, h⟩

/-- The reader one level down reads a node where it may be asked for one. -/
theorem RecursHere.reads {goal : Goal} (hr : RecursHere lexed before recur)
    (h : before.To lexed cursor) : Ensures (recur goal) cursor (Reads lexed cursor) := by
  obtain ⟨first, hrecurs, hmoves⟩ := hr
  exact hrecurs.reads (hmoves.to h)

/-- What may be asked for at once may be asked for later. -/
theorem RecursHere.recurs (hr : RecursHere lexed cursor recur) : Recurs lexed cursor recur := by
  obtain ⟨first, hrecurs, hmoves⟩ := hr
  exact hrecurs.to hmoves.1

/-- Reading where `in` is an operator reads the same. -/
theorem ensures_allowingIn {reader : TreeReader Node} (h : cursor.Sound lexed)
    (hread : ∀ cursor', cursor.To lexed cursor' →
      Ensures reader cursor' (Reads lexed cursor')) :
    Ensures (allowingIn reader) cursor (Reads lexed cursor) :=
  ensures_within (fun _ => hread _ h.to) fun _ _ _ hpost => hpost

/-- The value of a literal moves nothing. -/
theorem ensures_literalValue {α : Type} {value : Except LiteralFault α} :
    Ensures (literalValue value) cursor fun _ cursor' => cursor' = cursor := by
  cases value with
  | error fault => exact ensures_throw trivial
  | ok value => exact ensures_pure rfl

variable {token : Token} {key : Node}

section
variable (h : Took lexed before token cursor)
include h

/-- The literal of a string token stands where the token does. -/
theorem Took.stringLiteral : Ensures (stringLiteral token) cursor (Reads lexed before) := by
  refine ensures_literalValue.bind ?_
  rintro points _ rfl
  exact h.leaf rfl rfl

/-- The literal of a number token stands where the token does. -/
theorem Took.numberLiteral : Ensures (numberLiteral token) cursor (Reads lexed before) := by
  refine ensures_literalValue.bind ?_
  rintro number _ rfl
  exact h.leaf rfl rfl

/-- The identifier of a name stands where the name does, also if it is made later. -/
theorem Took.identifier_later {last : Cursor} (hto : cursor.To lexed last) :
    Ensures (TreeReader.identifier token) last fun node last' =>
      last.To lexed last' ∧ node.kind.isForm = true ∧
        Fits lexed.tokens before.front cursor.lastEnd node :=
  h.leaf_later hto rfl rfl

/-- The identifier of a name stands where the name does. -/
theorem Took.identifier : Ensures (identifier token) cursor (Reads lexed before) :=
  h.leaf rfl rfl

/-- A private name stands where its token does. -/
theorem Took.privateIdentifier : Ensures (privateIdentifier token) cursor (Reads lexed before) :=
  h.leaf rfl rfl

end

/-- A name that has to be next is an identifier. -/
theorem ensures_expectIdentifier (h : cursor.Sound lexed) :
    Ensures (do identifier (← expectName)) cursor (Reads lexed cursor) :=
  (ensures_expectName h).bind fun _ _ htook => htook.identifier

/-- A node that was read from where another one starts, up to the cursor at most. -/
def Twin (lexed : Lexed) (key value : Node) (cursor : Cursor) : Prop :=
  Placed lexed.tokens value ∧ ∃ span stop, key.span = some span ∧
    value.span = some ⟨span.start, stop⟩ ∧ span.start ≤ stop ∧ stop ≤ cursor.lastEnd

/-- A node is its own twin. -/
theorem Reads.twin (h : Reads lexed before key cursor) :
    Twin lexed key key cursor := by
  obtain ⟨_, _, _, hplaced, span, hspan, _, hle, hstop⟩ := h
  exact ⟨hplaced, span, span.stop, hspan, hspan, hle, hstop⟩

/-- A node whose two children start together is closed over them. -/
theorem ensures_finish_twins {kind : Kind} {fields : List (Field × Value)} {value : Node}
    {after : Cursor} (hbefore : before.Sound lexed) (hkey : Reads lexed before key after)
    (hto : after.To lexed cursor) (htwin : Twin lexed key value cursor) (hkind : kind.isForm = true)
    (hne : kind ≠ .templateLiteral) (hvalues : fieldValues kind fields = [.node key, .node value]) :
    Ensures (finish kind before.front fields) cursor (Reads lexed before) := by
  obtain ⟨hvalue, span, stop, hspan, hspan', hle, hstop⟩ := htwin
  obtain ⟨hto1, hlt1, _, hplaced, _, hspan1, hlow, horder, hhigh⟩ := hkey
  rw [hspan] at hspan1
  cases hspan1
  have hlt := Nat.lt_of_lt_of_le hlt1 hto.last_le
  refine ensures_finish (hbefore.starts (hto1.trans hto) hlt) (hto1.trans hto) hkind hlt ?_ ?_ ?_
  · rw [hvalues]
    refine ⟨?_, ?_⟩
    · simp [hspan, hspan']
    · simp only [filterMap_cons, Value.node?, hspan, hspan', filterMap_nil,
        mem_cons, not_mem_nil, or_false]
      rintro inner (rfl | rfl)
      · exact ⟨hlow, horder, Nat.le_trans hhigh hto.last_le⟩
      · exact ⟨hlow, hle, hstop⟩
  · rw [hvalues]
    simp [Value.node?, hplaced, hvalue]
  · rw [hvalues, inTurn_of_ne hne]
    simp [spansOf, Value.node?, hspan, hspan', Span.Before]

variable (hr : Recurs lexed cursor recur)
include hr

/-- A property key is read. -/
theorem ensures_propertyKey : Ensures (propertyKey recur) cursor fun key cursor' =>
    Reads lexed cursor key.1 cursor' := by
  have h := hr.sound
  refine ensures_current_bind.2 (ensures_ite (fun hopen => ?_) fun _ => ?_)
  · refine (ensures_skip h (Cursor.kind_of_is hopen)).bind fun _ c1 h1 => ?_
    refine (ensures_allowingIn h1.1.1.sound fun _ hto => hr.reads (h1.1.to hto)).bind
      fun key c2 h2 => ?_
    refine (ensures_expect h2.1.sound "]").bind fun _ c3 h3 => ?_
    exact ensures_pure (h2.around h1.1.1 h3.1)
  · split
    case h_1 hkind =>
      refine (ensures_skip h (by rw [hkind]; nofun)).bind fun _ c1 h1 => ?_
      exact h1.identifier.bind fun _ _ hkey => ensures_pure hkey
    case h_2 hkind =>
      refine (ensures_skip h (by rw [hkind]; nofun)).bind fun _ c1 h1 => ?_
      exact h1.privateIdentifier.bind fun _ _ hkey => ensures_pure hkey
    case h_3 hkind =>
      refine (ensures_skip h (by rw [hkind]; nofun)).bind fun _ c1 h1 => ?_
      exact h1.stringLiteral.bind fun _ _ hkey => ensures_pure hkey
    case h_4 hkind =>
      refine (ensures_skip h (by rw [hkind]; nofun)).bind fun _ c1 h1 => ?_
      exact h1.numberLiteral.bind fun _ _ hkey => ensures_pure hkey
    case h_5 => exact ensures_fail h

/-- A pattern in square brackets is read, with its elements in a row. -/
theorem ensures_arrayPattern : Ensures (arrayPattern recur) cursor (Reads lexed cursor) := by
  refine ensures_start_bind.2 ?_
  refine (ensures_expect hr.sound "[").bind fun _ c1 h1 => ?_
  refine h1.since.readAll (ensures_many (fun value => [value]) ?_ h1.1.sound) ?_
  · intro c2 h2
    exact ensures_element h2.1 fun c3 h3 => hr.reads (h1.to (h2.trans h3))
  · intro elements c2 s2
    refine s2.expect "]" fun c3 s3 => ?_
    refine s3.finish hr.sound rfl ?_
    simp [fieldValues, Kind.childFields, Value.flat, flatMap_singleton']

/-- A key that stands for itself is its value, with a default perhaps. -/
theorem ensures_shorthandValue (h : Reads lexed before key cursor) :
    Ensures (shorthandValue recur key) cursor fun value cursor' =>
      cursor.To lexed cursor' ∧ Twin lexed key value cursor' := by
  obtain ⟨hto, hlt, hkind, hplaced, span, hspan, hlow, hle, hhigh⟩ := h
  cases hplaced with
  | intro place bounds _ _ =>
    rw [hspan] at place
    cases place
    rw [bounded_of_isForm hkind] at bounds
    rw [shorthandValue, hspan, Option.getD_some]
    split
    case h_1 => exact ensures_throw trivial
    case h_2 text htext =>
      refine ensures_make.bind ?_
      rintro _ _ ⟨rfl, rfl⟩
      have hvalue : Placed lexed.tokens
          (.mk .identifier cursor.fresh (some span) none none [(.name, text)]) :=
        placed_of_row rfl rfl bounds.1 bounds.2.1 bounds.2.2 (.nil hle)
      have hsound : Cursor.Sound lexed { cursor with fresh := cursor.fresh + 1 } := hto.1
      refine (ensures_eat hsound "=").bind fun _ c1 h1 => ensures_ite (fun ht => ?_) fun _ => ?_
      · refine (hr.reads ⟨h1.1, h1.2.1 ht⟩).bind fun default c2 h2 => ?_
        have hto2 := h1.1.trans h2.1
        have hlt2 : span.start < c2.lastEnd :=
          Nat.lt_of_lt_of_le bounds.2.2 (Nat.le_trans hhigh hto2.last_le)
        have hrow : Row lexed.tokens span.start
            [.node (.mk .identifier cursor.fresh (some span) none none [(.name, text)]),
              .node default] c2.lastEnd := by
          refine .cons ⟨hvalue, span, rfl, Nat.le_refl _, hle, hhigh⟩ ?_
          exact (h2.spread h1.1.sound).2.mono_low h1.1.last_le
        refine Ensures.imp (.and (ensures_finish bounds.1 hto2 rfl hlt2 hrow.arranged
          hrow.placed (hrow.inTurn _)) grants_finish) ?_
        rintro value c3 ⟨⟨hto3, hlt3, _, hfits⟩, -, hspan3⟩
        exact ⟨hto3, hfits.placed, span, c3.lastEnd, hspan, hspan3, Nat.le_of_lt hlt3,
          Nat.le_refl _⟩
      · exact ensures_pure ⟨h1.1, hvalue, span, span.stop, hspan, rfl, hle,
          Nat.le_trans hhigh h1.1.last_le⟩

/-- A property of a pattern is read. -/
theorem ensures_patternProperty :
    Ensures (patternProperty recur) cursor (Reads lexed cursor) := by
  refine ensures_start_bind.2 ?_
  refine (ensures_eat hr.sound "...").bind fun _ c1 h1 => ensures_ite (fun ht => ?_) fun _ => ?_
  · refine (hr.reads ⟨h1.1, h1.2.1 ht⟩).bind fun argument c2 h2 => ?_
    exact (h2.since h1.1).finish hr.sound rfl rfl
  · refine (ensures_propertyKey (hr.to h1.1)).bind fun key c2 h2 => ?_
    refine (ensures_eat h2.1.sound ":").bind fun named c3 h3 => ?_
    have hkey := h2.around h1.1 h3.1
    refine ensures_ite (fun _ => ?_) fun _ => ?_
    · have s3 := (h2.since h1.1).to h3.1
      refine s3.read (hr.reads s3.moves) fun _ c4 s4 => ?_
      exact s4.finish hr.sound rfl rfl
    · refine (ensures_shorthandValue (hr.to hkey.1) hkey).bind fun value c4 h4 => ?_
      exact ensures_finish_twins hr.sound hkey h4.1 h4.2 rfl nofun rfl

/-- A pattern in braces is read, with its properties in a row. -/
theorem ensures_objectPattern : Ensures (objectPattern recur) cursor (Reads lexed cursor) := by
  refine ensures_start_bind.2 ?_
  refine (ensures_expect hr.sound _).bind fun _ c1 h1 => ?_
  refine h1.since.readAll (ensures_many_nodes ?_ h1.1.sound) ?_
  · intro c2 h2
    exact ensures_item h2.1 (ensures_patternProperty (hr.to (h1.1.trans h2)))
  · intro properties c2 s2
    refine s2.expect _ fun c3 s3 => ?_
    exact s3.finish hr.sound rfl (append_nil _)

/-- A name or a pattern is read. -/
theorem ensures_bindingTarget : Ensures (bindingTarget recur) cursor (Reads lexed cursor) := by
  refine ensures_isAt_bind.2 (ensures_ite (fun _ => ensures_arrayPattern hr) fun _ => ?_)
  refine ensures_isAt_bind.2 (ensures_ite (fun _ => ensures_objectPattern hr) fun _ => ?_)
  exact ensures_expectIdentifier hr.sound

/-- A binding target, with its default, or the rest of the elements is read. -/
theorem ensures_bindingElement : Ensures (bindingElement recur) cursor (Reads lexed cursor) := by
  refine ensures_start_bind.2 ?_
  refine (ensures_eat hr.sound "...").bind fun _ c1 h1 => ensures_ite (fun _ => ?_) fun _ => ?_
  · refine (ensures_bindingTarget (hr.to h1.1)).bind fun argument c2 h2 => ?_
    exact (h2.since h1.1).finish hr.sound rfl rfl
  · refine (ensures_bindingTarget (hr.to h1.1)).bind fun target c2 h2 => ?_
    refine (ensures_eat h2.1.sound "=").bind fun _ c3 h3 => ?_
    refine ensures_ite (fun _ => ?_) fun _ => ensures_pure (h2.around h1.1 h3.1)
    have s3 := (h2.since h1.1).to h3.1
    refine s3.read (hr.reads s3.moves) fun _ c4 s4 => ?_
    exact s4.finish hr.sound rfl rfl

end

end TreeReader

end DocTypes
