import Mathlib.Tactic.Common

/-!
# Cutting a list at a separator

What stands before the first separator, and what comes after it.
-/

namespace Rocketcycle

/-- Lists that are cut at the first occurrence of `c`. -/
theorem cut_inj {α : Type} {c : α} {a a' b b' : List α} (h : c ∉ a) (h' : c ∉ a') (same : a ++ c :: b = a' ++ c :: b') :
    a = a' ∧ b = b' := by
  induction a generalizing a' with
  | nil =>
    cases a' with
    | nil => exact ⟨rfl, (List.cons.inj same).2⟩
    | cons x a' =>
      obtain ⟨rfl, -⟩ := List.cons.inj same
      exact absurd List.mem_cons_self h'
  | cons x a ih =>
    cases a' with
    | nil =>
      obtain ⟨rfl, -⟩ := List.cons.inj same
      exact absurd List.mem_cons_self h
    | cons x' a' =>
      obtain ⟨rfl, rest⟩ := List.cons.inj same
      obtain ⟨rfl, rfl⟩ := ih (fun hc => h (List.mem_cons_of_mem _ hc)) (fun hc => h' (List.mem_cons_of_mem _ hc)) rest
      exact ⟨rfl, rfl⟩

end Rocketcycle
