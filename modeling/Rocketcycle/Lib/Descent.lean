import Mathlib.Data.Multiset.DershowitzManna
import Mathlib.Data.Nat.Find
import Mathlib.Tactic.Common

/-!
# Descents

Work as a multiset of ranks in the Dershowitz-Manna order: it goes down when a piece is replaced by
finitely many of smaller rank. Beside it stands a number of setbacks, after each of which the work
may be anything. A sequence that only stays or goes down ends up staying.
-/

namespace Rocketcycle.Descent

open Multiset

section
variable {α : Type} [Preorder α] {M M' N N' P : Multiset α} {a : α}

/-- The work has not become more. -/
def AtMost (M N : Multiset α) : Prop := M = N ∨ IsDershowitzMannaLT M N

theorem AtMost.refl (M : Multiset α) : AtMost M M := .inl rfl

theorem AtMost.lt_trans (h : AtMost M N) (h' : IsDershowitzMannaLT N P) : IsDershowitzMannaLT M P := by
  rcases h with rfl | h
  · exact h'
  · exact h.trans h'

theorem AtMost.trans (h : AtMost M N) (h' : AtMost N P) : AtMost M P := by
  rcases h' with rfl | h'
  · exact h
  · exact .inr (h.lt_trans h')

theorem lt_add_left (P : Multiset α) (h : IsDershowitzMannaLT M N) : IsDershowitzMannaLT (P + M) (P + N) := by
  obtain ⟨X, Y, Z, nonempty, rfl, rfl, below⟩ := h
  exact ⟨P + X, Y, Z, nonempty, (add_assoc P X Y).symm, (add_assoc P X Z).symm, below⟩

theorem AtMost.add_left (P : Multiset α) (h : AtMost M N) : AtMost (P + M) (P + N) := by
  rcases h with rfl | h
  · exact .refl _
  · exact .inr (lt_add_left P h)

theorem AtMost.add (h : AtMost M M') (h' : AtMost N N') : AtMost (M + N) (M' + N') := by
  have first : AtMost (M + N) (M' + N) := by
    rw [add_comm M, add_comm M']
    exact h.add_left N
  exact first.trans (h'.add_left M')

theorem lt_add (h : AtMost M M') (h' : IsDershowitzMannaLT N N') : IsDershowitzMannaLT (M + N) (M' + N') := by
  have first : AtMost (M + N) (M' + N) := h.add (.refl N)
  exact first.lt_trans (lt_add_left M' h')

theorem AtMost.cons (a : α) (h : AtMost M N) : AtMost (a ::ₘ M) (a ::ₘ N) := by
  rw [← singleton_add, ← singleton_add]
  exact h.add_left {a}

/-- A piece of work is done, or taken apart into smaller ones. -/
theorem replaced (below : ∀ b ∈ N, b < a) (h : AtMost M M') : IsDershowitzMannaLT (N + M) (a ::ₘ M') := by
  have apart : IsDershowitzMannaLT N {a} := ⟨0, N, {a}, by simp, by simp, by simp, by simpa using below⟩
  rw [← singleton_add, add_comm {a} M', add_comm N M]
  exact lt_add h apart

theorem removed (h : AtMost M M') : IsDershowitzMannaLT M (a ::ₘ M') := by
  have := replaced (N := 0) (a := a) (by simp) h
  rwa [zero_add] at this

theorem lowered {b : α} (below : b < a) (h : AtMost M M') : IsDershowitzMannaLT (b ::ₘ M) (a ::ₘ M') := by
  have := replaced (N := {b}) (a := a) (by simpa using below) h
  rwa [singleton_add] at this

theorem nothing_atMost (M : Multiset α) : AtMost 0 M := by
  by_cases empty : M = 0
  · exact .inl empty.symm
  · exact .inr ⟨0, 0, M, empty, by simp, by simp, by simp⟩

omit [Preorder α] in
theorem mem_sum {ι : Type} {f : ι → Multiset α} {l : List ι} (h : a ∈ (l.map f).sum) : ∃ i ∈ l, a ∈ f i := by
  induction l with
  | nil => simp at h
  | cons i l ih =>
    rw [List.map_cons, List.sum_cons, Multiset.mem_add] at h
    rcases h with h | h
    · exact ⟨i, List.mem_cons_self, h⟩
    · obtain ⟨j, hj, h⟩ := ih h
      exact ⟨j, List.mem_cons_of_mem _ hj, h⟩

/-- What is true of every part of a sum. -/
theorem AtMost.sum {ι : Type} {f g : ι → Multiset α} {l : List ι} (h : ∀ i ∈ l, AtMost (f i) (g i)) :
    AtMost (l.map f).sum (l.map g).sum := by
  induction l with
  | nil => exact .refl _
  | cons i l ih =>
    simp only [List.map_cons, List.sum_cons]
    exact (h i List.mem_cons_self).add (ih fun j hj => h j (List.mem_cons_of_mem _ hj))

end

/-! ## With setbacks -/

section
variable {α : Type} [Preorder α]

/-- A setback has been used up, or there is less work and none more of them. -/
def Down : ℕ × Multiset α → ℕ × Multiset α → Prop := Prod.Lex (· < ·) IsDershowitzMannaLT

theorem down_wf [WellFoundedLT α] : WellFounded (Down (α := α)) :=
  WellFounded.prod_lex wellFounded_lt wellFounded_isDershowitzMannaLT

theorem down_setback {n n' : ℕ} {M M' : Multiset α} (h : n < n') : Down (n, M) (n', M') := .left _ _ h

theorem down_work {n n' : ℕ} {M M' : Multiset α} (le : n ≤ n') (h : IsDershowitzMannaLT M M') : Down (n, M) (n', M') := by
  rcases le.lt_or_eq with lt | rfl
  · exact down_setback lt
  · exact .right _ h

end

/-- What only stays as it is or goes down in a well-founded order stays as it is from some point on. -/
theorem eventually_stays {β : Type} {r : β → β → Prop} (wf : WellFounded r) {f : ℕ → β}
    (h : ∀ i, f (i + 1) = f i ∨ r (f (i + 1)) (f i)) : ∃ n, ∀ i, n ≤ i → ¬r (f (i + 1)) (f i) := by
  by_contra never
  push Not at never
  have none : ∀ x n, f n = x → False := by
    intro x
    induction x using wf.induction with
    | _ x ih =>
      rintro n rfl
      classical
      have hex : ∃ k, r (f (n + k + 1)) (f (n + k)) := by
        obtain ⟨i, le, down⟩ := never n
        obtain ⟨k, rfl⟩ := Nat.exists_eq_add_of_le le
        exact ⟨k, down⟩
      have same : ∀ k, k ≤ Nat.find hex → f (n + k) = f n := by
        intro k
        induction k with
        | zero => intro _; rfl
        | succ k ihk =>
          intro le
          have before := Nat.find_min hex (show k < Nat.find hex by omega)
          exact ((h (n + k)).resolve_right before).trans (ihk (by omega))
      have down := Nat.find_spec hex
      rw [same _ le_rfl] at down
      exact ih _ down _ rfl
  exact none _ 0 rfl

end Rocketcycle.Descent
