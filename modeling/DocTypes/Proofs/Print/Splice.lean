import DocTypes.Proofs.Text.Slice

/-!
# Splicing

A patch puts a text in the place of a span. `splice` applies patches that stand one after the other
to a text. A stretch of the patched text between two offsets is `render`, and stretches that meet at
an offset that no patch covers join to one (`render_append`).
-/

namespace DocTypes

open List

/-- A text that stands in the place of a span. -/
structure Patch where
  /-- the number of the block that the patch is for -/
  block : Nat
  span : Span
  text : String

/-- The text from a place up to `stop`, with patches applied that stand one after the other. -/
def splice (text : List Char) (stop : Nat) : Nat → List Patch → List Char
  | place, [] => slice text place stop
  | place, patch :: rest =>
    slice text place patch.span.start ++ patch.text.toList ++ splice text stop patch.span.stop rest

/-- Patches that stand one after the other, each in place of some text. -/
structure Patches (length : Nat) (patches : List Patch) : Prop where
  ordered : patches.Pairwise fun first second => first.span.stop ≤ second.span.start
  solid : ∀ patch ∈ patches, patch.span.start < patch.span.stop
  inside : ∀ patch ∈ patches, patch.span.stop ≤ length

/-- The patches that start between two offsets. -/
def window (patches : List Patch) (start stop : Nat) : List Patch :=
  patches.filter fun patch => start ≤ patch.span.start && patch.span.start < stop

/-- The patched text between two offsets. -/
def render (text : List Char) (patches : List Patch) (start stop : Nat) : List Char :=
  splice text stop start (window patches start stop)

/-- No patch covers the offset, other than at its ends. -/
def IsCut (patches : List Patch) (offset : Nat) : Prop :=
  ∀ patch ∈ patches, offset ≤ patch.span.start ∨ patch.span.stop ≤ offset

section
variable {text : List Char} {patches : List Patch} {a b c : Nat}

/-- Text before all patches stays. -/
theorem slice_append_splice (hab : a ≤ b) (hbc : b ≤ c)
    (h : ∀ patch ∈ patches, b ≤ patch.span.start) :
    slice text a b ++ splice text c b patches = splice text c a patches := by
  cases patches with
  | nil => exact slice_append hab hbc
  | cons patch rest =>
    rw [splice, splice, ← slice_append hab (h patch (.head _))]
    simp only [append_assoc]

/-- Patches before an offset and patches after it are applied apart. -/
theorem splice_append : ∀ {front back : List Patch} {a : Nat}, a ≤ b → b ≤ c →
    (∀ patch ∈ front, patch.span.stop ≤ b) → (∀ patch ∈ back, b ≤ patch.span.start) →
    splice text b a front ++ splice text c b back = splice text c a (front ++ back) := by
  intro front
  induction front with
  | nil => exact fun hab hbc _ hback => slice_append_splice hab hbc hback
  | cons patch rest ih =>
    intro back a hab hbc hfront hback
    obtain ⟨hpatch, hrest⟩ := forall_mem_cons.1 hfront
    rw [splice, append_assoc, ih hpatch hbc hrest hback]
    rfl

/-- The window between the ends of the text holds all patches. -/
theorem window_all {length : Nat} (h : Patches length patches) :
    window patches 0 length = patches := by
  refine filter_eq_self.2 fun patch hmem => ?_
  have hsolid := h.solid patch hmem
  have hinside := h.inside patch hmem
  rw [Bool.and_eq_true, decide_eq_true_eq, decide_eq_true_eq]
  omega

/-- A window behind some patches holds none of them. -/
theorem window_eq_nil (h : ∀ patch ∈ patches, b ≤ patch.span.start) : window patches a b = [] := by
  refine filter_eq_nil_iff.2 fun patch hmem => ?_
  have := h patch hmem
  rw [Bool.and_eq_true, decide_eq_true_eq, decide_eq_true_eq]
  omega

/-- Windows that meet are one. -/
theorem window_append (h : patches.Pairwise fun first second => first.span.start ≤
    second.span.start)
    (hab : a ≤ b) (hbc : b ≤ c) :
    window patches a b ++ window patches b c = window patches a c := by
  induction patches with
  | nil => rfl
  | cons patch rest ih =>
    obtain ⟨hfirst, hrest⟩ := pairwise_cons.1 h
    by_cases hb : patch.span.start < b
    · -- the patch belongs to the first window, or to none
      have hlater : (b ≤ patch.span.start && patch.span.start < c) = false := by
        simp only [Bool.and_eq_false_iff, decide_eq_false_iff_not]
        omega
      have hsame : (a ≤ patch.span.start && patch.span.start < b) =
          (a ≤ patch.span.start && patch.span.start < c) := by
        have hc : patch.span.start < c := by omega
        simp only [hb, hc]
      have ih := ih hrest
      simp only [window, filter_cons, hlater, hsame] at ih ⊢
      split
      · rw [cons_append]
        exact congrArg _ ih
      · exact ih
    · -- the patch and all after it stand behind the first window
      have hbehind : ∀ later ∈ patch :: rest, b ≤ later.span.start := by
        intro later hmem
        rcases mem_cons.1 hmem with rfl | hmem
        · omega
        · have := hfirst later hmem
          omega
      rw [window_eq_nil hbehind, nil_append]
      refine filter_congr fun later hmem => ?_
      have := hbehind later hmem
      rw [Bool.eq_iff_iff]
      simp only [Bool.and_eq_true, decide_eq_true_eq]
      omega

/-- Patches that stand one after the other start one after the other. -/
theorem Patches.sorted {length : Nat} (h : Patches length patches) :
    patches.Pairwise fun first second => first.span.start ≤ second.span.start :=
  h.ordered.imp_of_mem fun hfirst _ hle => Nat.le_trans (Nat.le_of_lt (h.solid _ hfirst)) hle

/-- Nothing stands between an offset and itself. -/
theorem render_self : render text patches a a = [] := by
  have hnone : window patches a a = [] := by
    refine filter_eq_nil_iff.2 fun patch _ => ?_
    rw [Bool.and_eq_true, decide_eq_true_eq, decide_eq_true_eq]
    omega
  rw [render, hnone]
  exact slice_self

/-- Stretches of the patched text that meet where no patch is are one. -/
theorem render_append {length : Nat} (h : Patches length patches) (hab : a ≤ b) (hbc : b ≤ c)
    (hcut : IsCut patches b) :
    render text patches a b ++ render text patches b c = render text patches a c := by
  rw [render, render, render, ← window_append h.sorted hab hbc]
  refine splice_append hab hbc (fun patch hmem => ?_) fun patch hmem => ?_
  · obtain ⟨hmem, hstart⟩ := mem_filter.1 hmem
    simp only [Bool.and_eq_true, decide_eq_true_eq] at hstart
    rcases hcut patch hmem with hle | hle <;> omega
  · have hstart := (mem_filter.1 hmem).2
    simp only [Bool.and_eq_true, decide_eq_true_eq] at hstart
    exact hstart.1

/-- The whole text, patched. -/
theorem render_all (h : Patches text.length patches) :
    render text patches 0 text.length = splice text text.length 0 patches := by
  rw [render, window_all h]

/-- Behind the first of some patches the others are patches too. -/
theorem Patches.tail {patch : Patch} {rest : List Patch} (h : Patches c (patch :: rest)) :
    Patches c rest :=
  ⟨(pairwise_cons.1 h.ordered).2, fun p hp => h.solid p (.tail _ hp),
    fun p hp => h.inside p (.tail _ hp)⟩

/-- Patches that put back what was there change nothing. -/
theorem splice_eq_slice : ∀ {patches : List Patch} {a : Nat}, Patches c patches → a ≤ c →
    (∀ patch ∈ patches, a ≤ patch.span.start) →
    (∀ patch ∈ patches, patch.text.toList = patch.span.text text) →
    splice text c a patches = slice text a c := by
  intro patches
  induction patches with
  | nil => exact fun _ _ _ _ => rfl
  | cons patch rest ih =>
    intro a h hac hstart htext
    have hsolid := h.solid patch (.head _)
    have hinside := h.inside patch (.head _)
    have hfirst := (pairwise_cons.1 h.ordered).1
    rw [splice, ih h.tail hinside hfirst fun p hp => htext p (.tail _ hp), htext patch (.head _)]
    rw [Span.text, slice_append (hstart patch (.head _)) (Nat.le_of_lt hsolid),
      slice_append (Nat.le_trans (hstart patch (.head _)) (Nat.le_of_lt hsolid)) hinside]

/-- What stands in a spliced text stood outside of all patches, or is of one of them. -/
theorem mem_splice {d : Char} : ∀ {patches : List Patch} {a : Nat}, Patches c patches →
    (∀ patch ∈ patches, a ≤ patch.span.start) → d ∈ splice text c a patches →
    (∃ i, a ≤ i ∧ i < c ∧ text[i]? = some d ∧
      ∀ patch ∈ patches, i < patch.span.start ∨ patch.span.stop ≤ i) ∨
    ∃ patch ∈ patches, d ∈ patch.text.toList := by
  intro patches
  induction patches with
  | nil =>
    intro a _ _ hmem
    obtain ⟨i, ha, hc, hi⟩ := exists_of_mem_slice hmem
    exact .inl ⟨i, ha, hc, hi, nofun⟩
  | cons patch rest ih =>
    intro a h hstart hmem
    have hsolid := h.solid patch (.head _)
    have hinside := h.inside patch (.head _)
    have hle := hstart patch (.head _)
    have hfirst := (pairwise_cons.1 h.ordered).1
    rcases mem_append.1 hmem with hmem | hmem
    · rcases mem_append.1 hmem with hmem | hmem
      · obtain ⟨i, ha, hi, hd⟩ := exists_of_mem_slice hmem
        refine .inl ⟨i, ha, by omega, hd, forall_mem_cons.2 ⟨.inl hi, fun later hlater => ?_⟩⟩
        have := hfirst later hlater
        omega
      · exact .inr ⟨patch, .head _, hmem⟩
    · rcases ih h.tail hfirst hmem with ⟨i, ha, hi, hd, hout⟩ | ⟨other, hother, hd⟩
      · exact .inl ⟨i, by omega, hi, hd, forall_mem_cons.2 ⟨.inr ha, hout⟩⟩
      · exact .inr ⟨other, .tail _ hother, hd⟩

end

end DocTypes
