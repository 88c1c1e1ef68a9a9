import Mathlib.Data.List.Basic

/-!
# Annotated lists

A list in which some elements have a note put right behind them. Where notes can be told from other
elements, the list is what is left without them.
-/

namespace Annotations

variable {α : Type*}

/-- The list with the note of each element behind it. -/
def annotate (note : α → Option α) (l : List α) : List α := l.flatMap fun a => a :: (note a).toList

/-- The notes of the first, and where there is none those of the second. -/
def both (note note' : α → Option α) (a : α) : Option α := (note a).or (note' a)

variable {note note' : α → Option α} {isNote : α → Bool} {l : List α}

@[simp] theorem annotate_nil : annotate note ([] : List α) = [] := rfl

@[simp] theorem annotate_cons (a : α) (l : List α) : annotate note (a :: l) = a :: ((note a).toList ++ annotate note l) := rfl

theorem annotate_append (l l' : List α) : annotate note (l ++ l') = annotate note l ++ annotate note l' := List.flatMap_append

theorem mem_annotate {b : α} : b ∈ annotate note l ↔ b ∈ l ∨ ∃ a ∈ l, note a = some b := by
  induction l with
  | nil => simp
  | cons a l ih =>
    rw [annotate_cons, List.mem_cons, List.mem_append, ih, Option.mem_toList]
    simp only [List.mem_cons, exists_eq_or_imp]
    tauto

/-- Nothing to note. -/
theorem annotate_of_none (none : ∀ a ∈ l, note a = none) : annotate note l = l := by
  induction l with
  | nil => rfl
  | cons a l ih =>
    rw [annotate_cons, none a List.mem_cons_self, ih fun b hb => none b (List.mem_cons_of_mem _ hb)]
    rfl

/-- One element has a note. -/
theorem annotate_single {before after : List α} {a b : α} (hbefore : ∀ c ∈ before, note c = none) (here : note a = some b)
    (hafter : ∀ c ∈ after, note c = none) : annotate note (before ++ a :: after) = before ++ a :: b :: after := by
  rw [annotate_append, annotate_cons, annotate_of_none hbefore, annotate_of_none hafter, here]
  rfl

/-- Annotating twice, where no element has two notes and notes have none. -/
theorem annotate_annotate (apart : ∀ a ∈ l, ∀ b, note a = some b → note' a = none ∧ note' b = none) :
    annotate note' (annotate note l) = annotate (both note note') l := by
  induction l with
  | nil => rfl
  | cons a l ih =>
    have tail := ih fun b hb => apart b (List.mem_cons_of_mem _ hb)
    rw [annotate_cons, annotate_cons, annotate_append, tail, annotate_cons, both]
    cases h : note a with
    | none => rfl
    | some b =>
      obtain ⟨own, its⟩ := apart a List.mem_cons_self b h
      rw [own, Option.toList_some, annotate_cons, its]
      rfl

/-! ## Notes that can be told -/

/-- The elements are no notes, and what is put behind them is. -/
structure Told (isNote : α → Bool) (note : α → Option α) (l : List α) : Prop where
  own : ∀ a ∈ l, isNote a = false
  notes : ∀ a ∈ l, ∀ b, note a = some b → isNote b = true

theorem Told.tail {a : α} (h : Told isNote note (a :: l)) : Told isNote note l :=
  ⟨fun b hb => h.own b (List.mem_cons_of_mem _ hb), fun b hb => h.notes b (List.mem_cons_of_mem _ hb)⟩

/-- Without the notes the list is as it was. -/
theorem Told.filter_annotate (h : Told isNote note l) : (annotate note l).filter (fun b => !isNote b) = l := by
  induction l with
  | nil => rfl
  | cons a l ih =>
    rw [annotate_cons, List.filter_cons_of_pos (by simp [h.own a List.mem_cons_self]), List.filter_append, ih h.tail]
    cases hn : note a with
    | none => rfl
    | some b =>
      rw [Option.toList_some, List.filter_cons_of_neg (by simp [h.notes a List.mem_cons_self b hn])]
      rfl

/-- A note stands right behind the element it is of. -/
theorem Told.behind (h : Told isNote note l) {before after : List α} {b : α} (split : annotate note l = before ++ b :: after)
    (hb : isNote b = true) : ∃ before' a, before = before' ++ [a] ∧ a ∈ l ∧ note a = some b := by
  induction l generalizing before with
  | nil => cases before <;> cases split
  | cons a l ih =>
    have own := h.own a List.mem_cons_self
    rw [annotate_cons] at split
    cases before with
    | nil =>
      cases split
      rw [own] at hb
      cases hb
    | cons a' before =>
      obtain ⟨rfl, rest⟩ := List.cons_eq_cons.1 split
      have later {before : List α} (rest : annotate note l = before ++ b :: after) :
          ∃ before' c, before = before' ++ [c] ∧ c ∈ a :: l ∧ note c = some b := by
        obtain ⟨before', c, hbefore, hc, noted⟩ := ih h.tail rest
        exact ⟨before', c, hbefore, List.mem_cons_of_mem _ hc, noted⟩
      cases hn : note a with
      | none =>
        rw [hn] at rest
        obtain ⟨before', c, rfl, hc, noted⟩ := later rest
        exact ⟨a :: before', c, rfl, hc, noted⟩
      | some b' =>
        rw [hn] at rest
        cases before with
        | nil =>
          cases rest
          exact ⟨[], a, rfl, List.mem_cons_self, hn⟩
        | cons b'' before =>
          obtain ⟨rfl, after'⟩ := List.cons_eq_cons.1 rest
          obtain ⟨before', c, rfl, hc, noted⟩ := later after'
          exact ⟨a :: b' :: before', c, rfl, hc, noted⟩

/-- There are as many notes of a kind as elements that have one. -/
theorem Told.countP_annotate (h : Told isNote note l) {kind : α → Bool} (notes : ∀ a, kind a = true → isNote a = true) :
    (annotate note l).countP kind = l.countP fun a => (note a).any kind := by
  induction l with
  | nil => rfl
  | cons a l ih =>
    have own : ¬kind a = true := fun hk => absurd (notes a hk) (by simp [h.own a List.mem_cons_self])
    rw [annotate_cons, List.countP_cons_of_neg own, List.countP_append, ih h.tail, List.countP_cons]
    cases note a with
    | none => simp
    | some b => simp [List.countP_cons, Nat.add_comm]

end Annotations
